import SliverOS.Vfs.Mount
import SliverOS.Vfs.Names

/-!
# The bounds of the sector buffers

`vfs_read` and `vfs_write` each copy from or to a static buffer of one sector, at the
position of the descriptor. The ends of what is copied are sums in `size_t`, which may
wrap around in 32 bits, and the size of a file is that of its inode, which may have been
mounted from any sector with the magic.

A file that was mounted with a size of at most one sector never gets larger (`Sized`). In
a run that mounts no other files, a copy stays in its buffer if and only if its end does
not wrap around (`copiesInBounds_iff`), whatever calls of the driver fail.
-/

namespace SliverOS

open Bytes Flash

namespace Vfs

variable {w : SizeT} {s s' : Vfs} {i : Fin 16} {d : Fin 8} {ino : VfsInode} {fd : ℤ} {size : ℕ}
  {buffer : List UInt8}

/-! ## What is copied -/

/-- The sector of the file is read into the buffer of `vfs_read`. -/
def fileRead (s : Vfs) (d : Fin 8) : MkStatus × Memory × VfsBlock :=
  s.block.vfsBlockRead (s.inode (s.file d)).startSector s.readBuf sectorSize

/-- `vfs_read` copies: the descriptor is open and before the end of the file, and the sector is
    read. -/
structure Copies (s : Vfs) (d : Fin 8) : Prop where
  ready : s.ready = true
  isOpen : (s.openFiles d).isOpen = true
  before : (s.openFiles d).cursor < (s.inode (s.file d)).sizeBytes
  read : (s.fileRead d).1 = .ok

instance : Decidable (Copies s d) :=
  decidable_of_iff (s.ready = true ∧ (s.openFiles d).isOpen = true ∧
      (s.openFiles d).cursor < (s.inode (s.file d)).sizeBytes ∧ (s.fileRead d).1 = .ok)
    ⟨fun h => ⟨h.1, h.2.1, h.2.2.1, h.2.2.2⟩, fun h => ⟨h.ready, h.isOpen, h.before, h.read⟩⟩

instance : Decidable (Accepts w s d buffer) :=
  decidable_of_iff ((s.openFiles d).isOpen = true ∧ (s.openFiles d).flags &&& oRdonly = 0 ∧
      w.wrap ((s.openFiles d).cursor.toNat + buffer.length) ≤ sectorSize)
    ⟨fun h => ⟨h.1, h.2.1, h.2.2⟩, fun h => ⟨h.isOpen, h.writable, h.fits⟩⟩

/-- The offsets in its buffer that `vfs_read` copies from. -/
def readOffsets (w : SizeT) (s : Vfs) (fd : ℤ) (size : ℕ) : List ℕ :=
  match fd? fd with
  | none => []
  | some d =>
    if Copies s d then List.range' (s.cursor d)
      (toRead w (s.openFiles d).cursor (s.inode (s.file d)).sizeBytes size)
    else []

/-- The offsets in its buffer that `vfs_write` copies to. -/
def writeOffsets (w : SizeT) (s : Vfs) (fd : ℤ) (buffer : List UInt8) : List ℕ :=
  match fd? fd with
  | none => []
  | some d =>
    if s.ready = true ∧ Accepts w s d buffer then List.range' (s.cursor d) buffer.length else []

theorem slice_eq_map_range' (m : Memory) (a n : ℕ) : slice m a n = (List.range' a n).map m := by
  rw [slice, List.range'_eq_map_range, List.map_map]
  rfl

/-- The position of the descriptor moves with what is copied. -/
theorem vfsRead_of_copies (h : Copies s d) (w : SizeT) (size : ℕ) :
    s.vfsRead w (d : ℕ) size = (.ok (slice (s.fileRead d).2.1 (s.cursor d)
        (toRead w (s.openFiles d).cursor (s.inode (s.file d)).sizeBytes size)), { s with
      readBuf := (s.fileRead d).2.1
      block := (s.fileRead d).2.2
      openFiles := Function.update s.openFiles d { s.openFiles d with
        cursor := (s.openFiles d).cursor + UInt32.ofNat
          (toRead w (s.openFiles d).cursor (s.inode (s.file d)).sizeBytes size) } }) := by
  have hread : ¬(s.block.vfsBlockRead (s.inode (s.openFiles d).inodeIdx).startSector s.readBuf
      sectorSize).1 ≠ .ok := not_not.2 h.read
  have hend : ¬(s.inode (s.openFiles d).inodeIdx).sizeBytes ≤ (s.openFiles d).cursor :=
    UInt32.not_le.2 h.before
  rw [vfsRead, fd?_eq]
  simp only
  rw [if_neg (by simp [h.ready]), if_neg (by simp [h.isOpen]), if_neg hend, if_neg hread]
  rfl

/-- Otherwise nothing is given, and the files and the descriptors are as before. -/
theorem vfsRead_of_not_copies (h : ∀ d : Fin 8, fd = (d : ℕ) → ¬Copies s d) (w : SizeT) (size : ℕ) :
    ((∃ status, (s.vfsRead w fd size).1 = .error status) ∨ (s.vfsRead w fd size).1 = .ok []) ∧
      (s.vfsRead w fd size).2.superblock = s.superblock ∧
      (s.vfsRead w fd size).2.openFiles = s.openFiles := by
  rw [vfsRead]
  cases hfd : fd? fd with
  | none => exact ⟨.inl ⟨_, rfl⟩, rfl, rfl⟩
  | some d =>
    have hno := h d (eq_of_fd? hfd)
    simp only
    by_cases hready : s.ready = true
    swap
    · rw [if_pos (by simpa using hready)]
      exact ⟨.inl ⟨_, rfl⟩, rfl, rfl⟩
    rw [if_neg (by simp [hready])]
    by_cases hopen : (s.openFiles d).isOpen = true
    swap
    · rw [if_pos (by simpa using hopen)]
      exact ⟨.inl ⟨_, rfl⟩, rfl, rfl⟩
    rw [if_neg (by simp [hopen])]
    by_cases hend : (s.inode (s.openFiles d).inodeIdx).sizeBytes ≤ (s.openFiles d).cursor
    · rw [if_pos hend]
      exact ⟨.inr rfl, rfl, rfl⟩
    have hread : (s.block.vfsBlockRead (s.inode (s.openFiles d).inodeIdx).startSector s.readBuf
        sectorSize).1 ≠ .ok := fun hok => hno ⟨hready, hopen, UInt32.not_le.1 hend, hok⟩
    rw [if_neg hend, if_pos hread]
    exact ⟨.inl ⟨_, rfl⟩, rfl, rfl⟩

/-- The bytes that `vfs_read` gives are those of its buffer at these offsets. -/
theorem fst_vfsRead_eq_map {bs : List UInt8} (h : (s.vfsRead w fd size).1 = .ok bs) :
    bs = (s.readOffsets w fd size).map (s.vfsRead w fd size).2.readBuf := by
  by_cases hcopies : ∃ d : Fin 8, fd = (d : ℕ) ∧ Copies s d
  · obtain ⟨d, rfl, hd⟩ := hcopies
    rw [vfsRead_of_copies hd] at h ⊢
    rw [readOffsets, fd?_eq]
    simp only
    rw [if_pos hd, ← slice_eq_map_range']
    exact (Except.ok.inj h).symm
  · have hno (d : Fin 8) (hd : fd = (d : ℕ)) : ¬Copies s d := fun hc => hcopies ⟨d, hd, hc⟩
    have hnone : s.readOffsets w fd size = [] := by
      rw [readOffsets]
      cases hfd : fd? fd with
      | none => rfl
      | some d => exact if_neg (hno d (eq_of_fd? hfd))
    rcases (vfsRead_of_not_copies hno w size).1 with ⟨status, herr⟩ | hempty
    · rw [herr] at h
      cases h
    · rw [hempty] at h
      rw [hnone]
      exact (Except.ok.inj h).symm

/-- Without being ready, `vfs_write` changes nothing. -/
theorem vfsWrite_of_not_ready (h : s.ready ≠ true) (w : SizeT) (fd : ℤ) (buffer : List UInt8) :
    (s.vfsWrite w fd buffer).2 = s := by
  rw [vfsWrite]
  cases fd? fd with
  | none => rfl
  | some d =>
    simp only
    rw [if_pos (by simpa using h)]

/-- `vfs_write` rewrites the sector, and goes on if that did not fail. -/
theorem vfsWrite_of_accepts (hready : s.ready = true) (ha : Accepts w s d buffer) :
    (s.vfsWrite w (d : ℕ) buffer).2 =
      let t := s.writeSector d buffer (w.wrap (s.cursor d + buffer.length))
      if t.1 ≠ .ok then t.2 else t.2.advance d buffer.length := by
  have hfits : ¬sectorSize < w.wrap ((s.openFiles d).cursor.toNat + buffer.length) :=
    Nat.not_lt.2 ha.fits
  rw [vfsWrite, fd?_eq]
  simp only
  rw [if_neg (by simp [hready]), if_neg (by simp [ha.isOpen, ha.writable]), if_neg hfits]
  exact apply_ite Prod.snd ..

theorem writeBuf_vfsBlockRead (b : VfsBlock) (sector : UInt32) (m : Memory) {x : ℕ}
    (hx : sectorSize ≤ x) : (b.vfsBlockRead sector m sectorSize).2.1 x = m x := by
  have hafter : blit m 0 (slice (b.flash sector.toNat) 0 sectorSize) x = m x :=
    blit_of_notMem (.inr (by rw [length_slice]; omega))
  rw [VfsBlock.vfsBlockRead]
  split_ifs
  · rfl
  · rfl
  · simp only [hafter]

theorem writeBuf_advance (s : Vfs) (d : Fin 8) (size : ℕ) :
    (s.advance d size).writeBuf = s.writeBuf := by
  rw [advance]
  split_ifs
  · rw [vfsSyncSuperblock]
    rfl
  · rfl

/-- `vfs_write` changes its buffer beyond the sector at these offsets only. -/
theorem writeBuf_vfsWrite_of_notMem {x : ℕ} (hx : sectorSize ≤ x)
    (hmem : x ∉ s.writeOffsets w fd buffer) :
    (s.vfsWrite w fd buffer).2.writeBuf x = s.writeBuf x := by
  by_cases hready : s.ready = true
  swap
  · rw [vfsWrite_of_not_ready hready]
  rcases vfsWrite_refused_or hready w fd buffer with ⟨status, heq⟩ | ⟨d, rfl, ha⟩
  · rw [heq]
  rw [writeOffsets, fd?_eq] at hmem
  simp only [hready, ha, and_self, if_true, List.mem_range'_1] at hmem
  have hsector : (s.writeSector d buffer
      (w.wrap (s.cursor d + buffer.length))).2.writeBuf x = s.writeBuf x := by
    simp only [writeSector]
    rw [blit_of_notMem (by rw [cursor] at hmem; omega)]
    exact writeBuf_vfsBlockRead _ _ _ hx
  rw [vfsWrite_of_accepts hready ha]
  simp only
  split_ifs
  · exact hsector
  · rw [writeBuf_advance]
    exact hsector

/-! ## Bounds -/

/-- The sizes in a call are of `size_t` in 32 bits. -/
def Call.InRange : Call → Prop
  | .vfsRead _ size => size < 2 ^ 32
  | .vfsWrite _ buffer => buffer.length < 2 ^ 32
  | _ => True

/-- A call copies only inside of the sector buffer. -/
def CopiesInBounds (w : SizeT) (s : Vfs) : Call → Prop
  | .vfsRead fd size => ∀ x ∈ s.readOffsets w fd size, x < sectorSize
  | .vfsWrite fd buffer => ∀ x ∈ s.writeOffsets w fd buffer, x < sectorSize
  | _ => True

/-- The end of what a call copies does not wrap around in 32 bits. -/
def EndFits (s : Vfs) : Call → Prop
  | .vfsRead fd size => ∀ d : Fin 8, fd = (d : ℕ) → Copies s d → size ≠ 0 →
      s.cursor d + size < 2 ^ 32
  | .vfsWrite fd buffer => ∀ d : Fin 8, fd = (d : ℕ) → s.ready = true →
      Accepts .bits32 s d buffer → s.cursor d + buffer.length < 2 ^ 32
  | _ => True

/-- A read that copies is through a descriptor that it copies from. -/
theorem copies_of_mem_readOffsets {x : ℕ} (hx : x ∈ s.readOffsets w fd size) :
    ∃ d : Fin 8, fd = (d : ℕ) ∧ Copies s d := by
  rw [readOffsets] at hx
  cases hfd : fd? fd with
  | none =>
    rw [hfd] at hx
    cases hx
  | some d =>
    simp only [hfd] at hx
    split_ifs at hx with hcopies
    · exact ⟨d, eq_of_fd? hfd, hcopies⟩
    · cases hx

/-- A write that copies is one that is accepted. -/
theorem accepts_of_mem_writeOffsets {x : ℕ} (hx : x ∈ s.writeOffsets w fd buffer) :
    ∃ d : Fin 8, fd = (d : ℕ) ∧ s.ready = true ∧ Accepts w s d buffer := by
  rw [writeOffsets] at hx
  cases hfd : fd? fd with
  | none =>
    rw [hfd] at hx
    cases hx
  | some d =>
    simp only [hfd] at hx
    split_ifs at hx with haccepts
    · exact ⟨d, eq_of_fd? hfd, haccepts⟩
    · cases hx

theorem forall_range'_lt_iff {a n k : ℕ} :
    (∀ x ∈ List.range' a n, x < k) ↔ n = 0 ∨ a + n ≤ k := by
  simp only [List.mem_range'_1]
  constructor
  · intro h
    by_contra hno
    have hlast := h (a + n - 1) ⟨by omega, by omega⟩
    omega
  · intro h x hx
    omega

/-- A read copies from inside of its buffer if and only if it copies nothing, or its end does not
    wrap around and is in the sector, or the end of the file is. -/
theorem readOffsets_lt_iff (hcopies : Copies s d) (hsize : size < 2 ^ 32) :
    (∀ x ∈ s.readOffsets .bits32 (d : ℕ) size, x < sectorSize) ↔ size = 0 ∨
      s.cursor d + size < 2 ^ 32 ∧
        min (s.cursor d + size) (s.inode (s.file d)).sizeBytes.toNat ≤ sectorSize := by
  have hbefore := UInt32.lt_iff_toNat_lt.1 hcopies.before
  have hle := UInt32.le_of_lt hcopies.before
  have hlt := (s.inode (s.file d)).sizeBytes.toNat_lt
  rw [readOffsets, fd?_eq]
  simp only
  rw [if_pos hcopies, forall_range'_lt_iff, toRead, SizeT.wrap, UInt32.toNat_sub_of_le _ _ hle]
  change s.cursor d < _ at hbefore
  change (if _ < (s.cursor d + size) % 2 ^ 32 then _ - s.cursor d else size) = 0 ∨
    s.cursor d + (if _ < (s.cursor d + size) % 2 ^ 32 then _ - s.cursor d else size) ≤ _ ↔ _
  rw [sectorSize]
  split_ifs with hshort
  · omega
  · omega

theorem writeOffsets_lt_iff (hready : s.ready = true) (ha : Accepts .bits32 s d buffer) :
    (∀ x ∈ s.writeOffsets .bits32 (d : ℕ) buffer, x < sectorSize) ↔
      s.cursor d + buffer.length < 2 ^ 32 := by
  have hfits : (s.cursor d + buffer.length) % 2 ^ 32 ≤ 4096 := ha.fits
  have hcursor : s.cursor d < 2 ^ 32 := UInt32.toNat_lt _
  rw [writeOffsets, fd?_eq]
  simp only
  rw [if_pos ⟨hready, ha⟩, forall_range'_lt_iff, sectorSize]
  omega

/-! ## The sizes of files -/

/-- Files in use, and those that descriptors are open on, have at most one sector. -/
structure Sized (s : Vfs) : Prop where
  slot : ∀ i, (s.inode i).inUse ≠ 0 → (s.inode i).sizeBytes.toNat ≤ sectorSize
  desc : ∀ d, (s.openFiles d).isOpen = true → (s.inode (s.file d)).sizeBytes.toNat ≤ sectorSize

theorem Sized.congr (h : Sized s) (hsb : s'.superblock.inodes = s.superblock.inodes)
    (hfiles : s'.openFiles = s.openFiles) : Sized s' where
  slot i hi := by
    rw [inode, hsb] at hi ⊢
    exact h.slot i hi
  desc d hd := by
    rw [hfiles] at hd
    rw [inode, hsb, file, hfiles]
    exact h.desc d hd

/-- A change of one inode. -/
theorem Sized.setInode (h : Sized s) (hino : ino.sizeBytes.toNat ≤ sectorSize) :
    Sized (s.setInode i ino) where
  slot j := inode_update (p := fun ino => ino.inUse ≠ 0 → ino.sizeBytes.toNat ≤ sectorSize)
    (fun _ => hino) (h.slot j)
  desc d hd := inode_update (p := fun ino => ino.sizeBytes.toNat ≤ sectorSize) hino (h.desc d hd)

/-- A change of a descriptor. -/
theorem Sized.setDesc (h : Sized s) {e : VfsFileDesc}
    (he : e.isOpen = true → (s.inode e.inodeIdx).sizeBytes.toNat ≤ sectorSize) :
    Sized { s with openFiles := Function.update s.openFiles d e } where
  slot := h.slot
  desc := desc_update (p := fun e => (s.inode e.inodeIdx).sizeBytes.toNat ≤ sectorSize) h.desc he

theorem Sized.erase (h : Sized s) (sector : UInt32) : Sized (s.erase sector) := h.congr rfl rfl

theorem Sized.write (h : Sized s) (sector : UInt32) (data : List UInt8) :
    Sized (s.write sector data) :=
  h.congr rfl rfl

theorem Sized.setFileCount (h : Sized s) (fileCount : UInt32) :
    Sized { s with superblock := { s.superblock with fileCount } } :=
  h.congr rfl rfl

theorem Sized.vfsSyncSuperblock (h : Sized s) : Sized s.vfsSyncSuperblock :=
  h.congr (inodes_vfsSyncSuperblock s) rfl

theorem Sized.create (h : Sized s) (i : Fin 16) (name : List UInt8) (flags : UInt32) :
    Sized (s.create i name flags) := by
  have hnew := h.setInode (i := i) (slotOk_newInode s i name flags).sizeBytes
  rw [Vfs.create]
  exact ((hnew.setFileCount _).erase _).vfsSyncSuperblock

theorem Sized.truncate (h : Sized s) (i : Fin 16) (d : Fin 8)
    (hopen : (s.openFiles d).isOpen = true) : Sized (s.truncate i d) := by
  have hempty : ({ s.inode i with sizeBytes := 0 } : VfsInode).sizeBytes.toNat ≤ sectorSize :=
    Nat.zero_le _
  have hemptied := h.setInode (i := i) hempty
  have hrewound := hemptied.setDesc (d := d) (e := { s.openFiles d with cursor := 0 })
    fun _ => hemptied.desc d hopen
  rw [Vfs.truncate]
  exact (hrewound.erase _).vfsSyncSuperblock

theorem Sized.remove (h : Sized s) (huse : (s.inode i).inUse ≠ 0) : Sized (s.remove i) := by
  have hino : ({ s.inode i with inUse := 0 } : VfsInode).sizeBytes.toNat ≤ sectorSize :=
    h.slot i huse
  have hremoved := h.setInode (i := i) hino
  rw [Vfs.remove]
  exact ((hremoved.erase _).setFileCount _).vfsSyncSuperblock

theorem Sized.targetInode (h : Sized s) (name : List UInt8) (flags : UInt32) :
    Sized (s.targetInode name flags).2 :=
  targetInode_rule h name flags fun i _ => h.create i name flags

theorem Sized.vfsOpen (h : Sized s) (path : List UInt8) (flags : UInt32) :
    Sized (s.vfsOpen path flags).2 := by
  refine vfsOpen_rule h path flags (h.targetInode _ flags) ?_ ?_
  · intro i t d htarget ht
    exact ht.setDesc fun _ => ht.slot i (inUse_targetInode htarget)
  · intro i t d _ _ hopened
    have hopen : ((t.opened i d flags).openFiles d).isOpen = true :=
      congrArg VfsFileDesc.isOpen (Function.update_self d _ t.openFiles)
    exact hopened.truncate i d hopen

theorem Sized.vfsRead (h : Sized s) (w : SizeT) (fd : ℤ) (size : ℕ) :
    Sized (s.vfsRead w fd size).2 := by
  by_cases hcopies : ∃ d : Fin 8, fd = (d : ℕ) ∧ Copies s d
  · obtain ⟨d, rfl, hd⟩ := hcopies
    rw [vfsRead_of_copies hd]
    have hread : Sized { s with readBuf := (s.fileRead d).2.1, block := (s.fileRead d).2.2 } :=
      h.congr rfl rfl
    exact hread.setDesc fun hopen => h.desc d hopen
  · obtain ⟨-, hsb, hfiles⟩ :=
      vfsRead_of_not_copies (fun d hd hc => hcopies ⟨d, hd, hc⟩) w size
    exact h.congr (congrArg VfsSuperblock.inodes hsb) hfiles

theorem Sized.advance (h : Sized s) (hopen : (s.openFiles d).isOpen = true)
    (hcursor : (s.advanced d size).cursor.toNat ≤ sectorSize) : Sized (s.advance d size) := by
  have hmoved := h.setDesc (d := d) (e := s.advanced d size) fun _ => h.desc d hopen
  by_cases hlt : (s.inode (s.openFiles d).inodeIdx).sizeBytes < (s.advanced d size).cursor
  · refine Eq.mpr (congrArg Sized (if_pos hlt)) ?_
    exact (hmoved.setInode hcursor).vfsSyncSuperblock
  · rw [advance_of_le (UInt32.not_lt.1 hlt)]
    exact hmoved

theorem Sized.vfsWrite (h : Sized s) (w : SizeT) (fd : ℤ) (buffer : List UInt8) :
    Sized (s.vfsWrite w fd buffer).2 := by
  by_cases hready : s.ready = true
  swap
  · rwa [vfsWrite_of_not_ready hready]
  rcases vfsWrite_refused_or hready w fd buffer with ⟨status, heq⟩ | ⟨d, rfl, ha⟩
  · rwa [heq]
  have hwritten : Sized (s.writeSector d buffer (w.wrap (s.cursor d + buffer.length))).2 :=
    h.congr rfl rfl
  rw [vfsWrite_of_accepts hready ha]
  simp only
  split_ifs
  · exact hwritten
  · exact hwritten.advance ha.isOpen ((toNat_cursor ha.fits).trans_le ha.fits)

theorem Sized.vfsClose (h : Sized s) (fd : ℤ) : Sized (s.vfsClose fd).2 :=
  vfsClose_rule h fd fun _ => h.setDesc fun hopen => by cases hopen

theorem Sized.vfsDelete (h : Sized s) (path : List UInt8) : Sized (s.vfsDelete path).2 :=
  vfsDelete_rule h path fun _ hfind => h.remove (findInode_inUse hfind)

/-! ## Mounting -/

/-- The files of a superblock, if there is one, have at most one sector. -/
def FoundSized (sector : Memory) : Prop :=
  (VfsSuperblock.ofMemory sector).magic = blockMagic → ∀ i,
    ((VfsSuperblock.ofMemory sector).inodes i).inUse ≠ 0 →
      ((VfsSuperblock.ofMemory sector).inodes i).sizeBytes.toNat ≤ sectorSize

theorem flash_vfsBlockInit {b b' : VfsBlock} (h : b.vfsBlockInit = (.ok, b')) :
    b'.flash = if b.medium.persistent then b.flash else fun _ => blank := by
  obtain ⟨t, ht, hmedium, hflash⟩ : ∃ t : VfsBlock,
      (if b.crcTableReady then b else b.initCrcTable) = t ∧ t.medium = b.medium ∧
        t.flash = b.flash := by
    refine ⟨_, rfl, ?_⟩
    simp only [VfsBlock.initCrcTable]
    split_ifs
    · exact ⟨rfl, rfl⟩
    · exact ⟨rfl, rfl⟩
  rw [VfsBlock.vfsBlockInit, ht] at h
  by_cases hp : t.medium.persistent = true
  · rw [if_pos (hmedium ▸ hp), ← hflash]
    simp only [hp, if_true] at h
    split_ifs at h
    · cases h
    · cases h
      rfl
    · cases h
      rfl
  · rw [if_neg (hmedium ▸ hp)]
    simp only [hp, Bool.false_eq_true, if_false] at h
    cases h
    rfl

theorem Sized.createDefaultFiles (h : Sized s) : Sized s.createDefaultFiles := by
  have hlength : (UInt32.ofNat defaultMacro.length).toNat ≤ sectorSize := by decide +kernel
  have hseeded : Sized s.seedMacro := by
    rw [seedMacro]
    exact ((h.setInode hlength).erase 1).write 1 defaultMacro
  have hlog : Sized s.seedMacro.seedLog := by
    rw [seedLog]
    exact (hseeded.setInode (Nat.zero_le _)).erase 2
  rw [Vfs.createDefaultFiles]
  exact (hlog.setFileCount 2).vfsSyncSuperblock

/-- Mounting files of at most one sector, or formatting. -/
theorem sized_vfsInit (h : FoundSized (foundSector s.block.medium s.block.flash)) :
    Sized s.vfsInit.2 := by
  have hzero (sb : VfsSuperblock) (hsb : sb.inodes = fun _ => .zero) (b : VfsBlock)
      (reports : List MkFault) : Sized { s with
        openFiles := fun _ => ⟨0, 0, 0, false⟩, superblock := sb, block := b, reports } :=
    ⟨fun i hi => absurd (congrArg VfsInode.inUse (congrFun hsb i)) hi, fun _ hd => by cases hd⟩
  rw [vfsInit]
  rcases hinit : s.block.vfsBlockInit with ⟨status, b⟩
  simp only
  by_cases hstatus : status = .ok
  swap
  · rw [if_pos hstatus]
    exact hzero .zero rfl b _
  rw [if_neg (not_not.2 hstatus)]
  rw [hstatus] at hinit
  rcases hread : b.vfsBlockRead 0 VfsSuperblock.zero.byte VfsSuperblock.size with
    ⟨status', superblock, b'⟩
  simp only
  by_cases hformat : status' ≠ .ok ∨ (VfsSuperblock.ofMemory superblock).magic ≠ blockMagic
  · rw [if_pos hformat]
    exact (hzero { VfsSuperblock.zero with magic := blockMagic } rfl b'
      s.reports).createDefaultFiles.congr rfl rfl
  -- The superblock that was read is that of the first sector.
  obtain ⟨hok, hmagic⟩ := not_or.1 hformat
  rw [if_neg hformat]
  have hsector : VfsSuperblock.ofMemory superblock =
      VfsSuperblock.ofMemory (foundSector s.block.medium s.block.flash) := by
    rw [VfsBlock.vfsBlockRead] at hread
    split_ifs at hread
    · rw [Prod.mk.injEq] at hread
      exact absurd (hread.1 ▸ by decide) hok
    · rw [Prod.mk.injEq] at hread
      exact absurd (hread.1 ▸ by decide) hok
    · rw [Prod.mk.injEq, Prod.mk.injEq] at hread
      rw [← hread.2.1]
      refine VfsSuperblock.ofMemory_congr fun x hx => ?_
      have hzero : (0 : UInt32).toNat = 0 := rfl
      rw [blit_slice_zero (by simpa [VfsSuperblock.size] using hx), flash_vfsBlockInit hinit,
        foundSector, hzero, apply_ite (fun f : Image => f 0)]
  have hfound := h (hsector ▸ not_not.1 hmagic)
  constructor
  · intro i hi
    simp only [inode, hsector] at hi ⊢
    exact hfound i hi
  · intro d hd
    cases hd

/-! ## Runs -/

/-- The runs in 32 bits, with any failures of the driver, in which no end wraps around, and files
    are mounted with at most one sector. -/
inductive BoundedRun : Vfs → Prop
  | powerOn (medium : Medium) (flash : Image) : BoundedRun (powerOn medium flash [])
  | faults {s : Vfs} (h : BoundedRun s) (faults : List Bool) : BoundedRun (s.withFaults faults)
  | call {s : Vfs} (h : BoundedRun s) {c : Call} (hc : c.InRange) (hfits : s.EndFits c)
      (hinit : c = .vfsInit → FoundSized (foundSector s.block.medium s.block.flash)) :
      BoundedRun (s.exec .bits32 c)

theorem Sized.exec (h : Sized s) (w : SizeT) {c : Call}
    (hinit : c = .vfsInit → FoundSized (foundSector s.block.medium s.block.flash)) :
    Sized (s.exec w c) := by
  cases c with
  | vfsInit => exact sized_vfsInit (hinit rfl)
  | vfsOpen path flags => exact h.vfsOpen path flags
  | vfsRead fd size => exact h.vfsRead w fd size
  | vfsWrite fd buffer => exact h.vfsWrite w fd buffer
  | vfsClose fd => exact h.vfsClose fd
  | vfsDelete path => exact h.vfsDelete path

theorem BoundedRun.sized (h : BoundedRun s) : Sized s := by
  induction h with
  | powerOn medium flash => exact ⟨fun _ hi => absurd rfl hi, fun _ hd => by cases hd⟩
  | faults _ faults ih => exact ih.congr rfl rfl
  | call _ _ _ hinit ih => exact ih.exec .bits32 hinit

/-- With files of at most one sector, a call copies inside of the sector buffer if and only if the
    end of what it copies does not wrap around. -/
theorem Sized.copiesInBounds_iff_endFits (h : Sized s) {c : Call} (hc : c.InRange) :
    CopiesInBounds .bits32 s c ↔ s.EndFits c := by
  cases c with
  | vfsRead fd size =>
    by_cases hcopies : ∃ d : Fin 8, fd = (d : ℕ) ∧ Copies s d
    swap
    · exact iff_of_true (fun x hx => absurd (copies_of_mem_readOffsets hx) hcopies)
        fun d hd hcopy => absurd ⟨d, hd, hcopy⟩ hcopies
    obtain ⟨d, rfl, hcopy⟩ := hcopies
    have hsize := h.desc d hcopy.isOpen
    have hin := readOffsets_lt_iff hcopy hc
    constructor
    · intro hbounds e he _ hne
      obtain rfl : d = e := Fin.ext (Int.ofNat.inj he)
      exact ((hin.1 hbounds).resolve_left hne).1
    · intro hfits
      refine hin.2 ?_
      by_cases hne : size = 0
      · exact .inl hne
      · exact .inr ⟨hfits d rfl hcopy hne, (Nat.min_le_right _ _).trans hsize⟩
  | vfsWrite fd buffer =>
    by_cases haccepts : ∃ d : Fin 8, fd = (d : ℕ) ∧ s.ready = true ∧ Accepts .bits32 s d buffer
    swap
    · exact iff_of_true (fun x hx => absurd (accepts_of_mem_writeOffsets hx) haccepts)
        fun d hd hready ha => absurd ⟨d, hd, hready, ha⟩ haccepts
    obtain ⟨d, rfl, hready, ha⟩ := haccepts
    have hin := writeOffsets_lt_iff hready ha
    constructor
    · intro hbounds e he _ _
      obtain rfl : d = e := Fin.ext (Int.ofNat.inj he)
      exact hin.1 hbounds
    · intro hfits
      exact hin.2 (hfits d rfl hready ha)
  | _ => exact Iff.rfl

/-- After a run in which no end wraps around and files are mounted with at most one sector, a call
    copies inside of the sector buffer if and only if the end of what it copies does not wrap
    around. -/
theorem copiesInBounds_iff (h : BoundedRun s) {c : Call} (hc : c.InRange) :
    CopiesInBounds .bits32 s c ↔ s.EndFits c :=
  h.sized.copiesInBounds_iff_endFits hc

/-- The default macro file opened for reading, and one byte of it read. -/
def macroRead : Vfs := (formatted.exec .bits32 (.vfsOpen (ascii "macro.txt") oRdonly)).exec .bits32
  (.vfsRead 0 1)

theorem boundedRun_macroOpened :
    BoundedRun (formatted.exec .bits32 (.vfsOpen (ascii "macro.txt") oRdonly)) := by
  have hblank : FoundSized (foundSector .osfs fun _ => blank) :=
    fun hmagic => absurd hmagic (by decide +kernel)
  have hformatted : BoundedRun formatted :=
    .call (.powerOn .osfs fun _ => blank) (c := .vfsInit) trivial trivial fun _ => hblank
  exact hformatted.call (c := .vfsOpen (ascii "macro.txt") oRdonly) trivial trivial
    fun hinit => by cases hinit

theorem copiesInBounds_iff_macro :
    CopiesInBounds .bits32 (formatted.exec .bits32 (.vfsOpen (ascii "macro.txt") oRdonly))
      (.vfsRead 0 1) ↔
    (formatted.exec .bits32 (.vfsOpen (ascii "macro.txt") oRdonly)).EndFits (.vfsRead 0 1) :=
  copiesInBounds_iff boundedRun_macroOpened (show 1 < 2 ^ 32 by decide)

/-- The default macro file opened for reading, on a formatted flash on which its size was changed
    to 5000. -/
def resizedOpened : Vfs :=
  (mount .osfs (Function.update formatted.block.flash 0
    (blit (formatted.block.flash 0) 44 (toLE 4 5000)))).exec .bits32
      (.vfsOpen (ascii "macro.txt") oRdonly)

/-- The largest size makes the end of a read 0, which is taken to be before that of the file, and
    a file may be mounted with any size. -/
theorem read_beyond_sector :
    Reachable .bits32 macroRead ∧ ¬CopiesInBounds .bits32 macroRead (.vfsRead 0 0xFFFFFFFF) ∧
      ¬CopiesInBounds .bits32 resizedOpened (.vfsRead 0 5000) := by
  refine ⟨(reachable_formatted.call _).call _, fun hbounds => ?_, fun hbounds => ?_⟩
  · have hcopies : Copies macroRead 0 := by decide +kernel
    have hcursor : macroRead.cursor 0 = 1 := by decide +kernel
    have hin := (readOffsets_lt_iff hcopies (show 0xFFFFFFFF < 2 ^ 32 by decide)).1 hbounds
    rw [hcursor] at hin
    omega
  · have hcopies : Copies resizedOpened 0 := by decide +kernel
    have hcursor : resizedOpened.cursor 0 = 0 := by decide +kernel
    have hsize : (resizedOpened.inode (resizedOpened.file 0)).sizeBytes.toNat = 5000 := by
      decide +kernel
    have hin := (readOffsets_lt_iff hcopies (show 5000 < 2 ^ 32 by decide)).1 hbounds
    rw [hcursor, hsize, sectorSize] at hin
    omega

end Vfs

end SliverOS
