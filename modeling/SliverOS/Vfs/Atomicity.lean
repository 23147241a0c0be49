import SliverOS.Vfs.Faults

/-!
# Calls that fail

`vfs_write` reads the sector of the file into its static buffer, erases it, and programs
it. It gives an error if programming fails, and takes no notice of the other failures.
So with an error, the file is as before only if it was not erased, or was erased before;
and without one, its bytes are the right ones only if what the buffer had in it, or what
was not erased, did not get in between (`writeAtomic_iff`).

`vfs_open` creates a file before it looks for a descriptor. If there is none, the file
stays, and otherwise a call that fails changes nothing (`openAtomic_iff`).
-/

namespace SliverOS

open Bytes Flash

namespace Vfs

variable {w : SizeT} {s : Vfs} {i : Fin 16} {d : Fin 8} {buffer : List UInt8} {faults : List Bool}

/-! ## Writing -/

/-- The sector of the file of a slot. -/
def sectorOf (s : Vfs) (i : Fin 16) : Memory := s.block.flash (s.inode i).startSector.toNat

/-- The read of `vfs_write` fails. -/
def readFails (faults : List Bool) : Bool := faults.headD false

/-- Its erasure does. -/
def eraseFails (faults : List Bool) : Bool := faults.tail.headD false

/-- Its write does. -/
def writeFails (faults : List Bool) : Bool := faults.tail.tail.headD false

/-- The file has the bytes from the position of the descriptor on, and those before it as they
    were. -/
structure Wrote (s s' : Vfs) (d : Fin 8) (buffer : List UInt8) : Prop where
  bytes : ((s'.content (s.file d)).drop (s.cursor d)).take buffer.length = buffer
  before : slice (s'.sectorOf (s.file d)) 0 (s.cursor d) =
    slice (s.sectorOf (s.file d)) 0 (s.cursor d)

/-- The file and the position of the descriptor are as before. -/
structure Untouched (s s' : Vfs) (d : Fin 8) : Prop where
  content : s'.content (s.file d) = s.content (s.file d)
  size : (s'.inode (s.file d)).sizeBytes = (s.inode (s.file d)).sizeBytes
  cursor : s'.cursor d = s.cursor d

/-- With some failures, `vfs_write` writes the bytes, or gives an error and changes nothing. -/
def WriteAtomic (w : SizeT) (s : Vfs) (fd : ℤ) (buffer : List UInt8) (faults : List Bool) : Prop :=
  ∀ d : Fin 8, fd = (d : ℕ) → match (s.withFaults faults).vfsWrite w fd buffer with
    | (.ok _, s') => Wrote s s' d buffer
    | (.error _, s') => Untouched s s' d

/-- What is programmed over: the sector erased, or as it was. -/
def underlying (faults : List Bool) (sector : Memory) : Memory :=
  if eraseFails faults then sector else blank

/-- What is programmed before the cursor: the sector, or what was in the buffer. -/
def copied (s : Vfs) (i : Fin 16) (faults : List Bool) : Memory :=
  if readFails faults then s.writeBuf else s.sectorOf i

/-- What is programmed is what shall be there, given what it is programmed over. -/
structure ProgramsWhole (s : Vfs) (d : Fin 8) (buffer : List UInt8) (faults : List Bool) :
    Prop where
  fits : s.cursor d + buffer.length ≤ sectorSize
  before : ∀ x < s.cursor d, s.block.medium.cell.program
    (underlying faults (s.sectorOf (s.file d)) x) (s.copied (s.file d) faults x) =
      s.sectorOf (s.file d) x
  bytes : ∀ j < buffer.length, s.block.medium.cell.program
    (underlying faults (s.sectorOf (s.file d)) (s.cursor d + j)) (buffer.getD j 0) =
      buffer.getD j 0

/-- A write with some failures goes well, the call not being refused. -/
def GoesWell (s : Vfs) (d : Fin 8) (buffer : List UInt8) (faults : List Bool) : Prop :=
  if writeFails faults then eraseFails faults = true ∨ ∀ b ∈ s.content (s.file d), b = 0xFF
  else s.ProgramsWhole d buffer faults

/-! ### The sector -/

/-- The buffer of `vfs_write` with the bytes to write in it. -/
def faultyImage (s : Vfs) (d : Fin 8) (buffer : List UInt8) (faults : List Bool) : Memory :=
  blit (if readFails faults then s.writeBuf
    else blit s.writeBuf 0 (slice (s.sectorOf (s.file d)) 0 sectorSize)) (s.cursor d) buffer

/-- The sector of the file after `vfs_write`. -/
def faultySector (s : Vfs) (d : Fin 8) (buffer : List UInt8) (faults : List Bool) (size : ℕ) :
    Memory :=
  if writeFails faults then underlying faults (s.sectorOf (s.file d))
  else s.block.medium.cell.programAll (underlying faults (s.sectorOf (s.file d)))
    (slice (s.faultyImage d buffer faults) 0 size)

theorem writeSector_withFaults (h : Mounted s) (d : Fin 8) (buffer : List UInt8)
    (faults : List Bool) {size : ℕ} (hsize : size ≤ sectorSize) :
    ∃ b : VfsBlock, b.Usable ∧ b.flash = Function.update s.block.flash
        (s.inode (s.file d)).startSector.toNat (s.faultySector d buffer faults size) ∧
      (s.withFaults faults).writeSector d buffer size =
        (if writeFails faults then .ioError else .ok,
          { s with writeBuf := s.faultyImage d buffer faults, block := b }) := by
  have hstart := (h.slot (s.file d)).lt
  have hread := (h.withFaults faults).usable
  have herase := hread.next
  -- The block once the sector was erased, or not.
  obtain ⟨b, hb, heq, hflash, hmedium, hfails⟩ : ∃ b : VfsBlock, b.Usable ∧
      ((s.withFaults faults).block.next.vfsBlockErase (s.inode (s.file d)).startSector).2 = b ∧
      b.flash = Function.update s.block.flash (s.inode (s.file d)).startSector.toNat
        (underlying faults (s.sectorOf (s.file d))) ∧
      b.medium = s.block.medium ∧ b.fails = writeFails faults := by
    rw [herase.vfsBlockErase_eq hstart]
    cases he : eraseFails faults with
    | true =>
      refine ⟨(s.withFaults faults).block.next.next, herase.next, if_pos he, ?_, rfl, rfl⟩
      rw [underlying, he, if_pos rfl]
      exact (Function.update_eq_self _ _).symm
    | false =>
      refine ⟨((s.withFaults faults).block.next.next).perform
        (.erase (s.inode (s.file d)).startSector.toNat), ⟨herase.initialized, herase.sectorCount⟩,
        if_neg (Bool.eq_false_iff.1 he), ?_, rfl, rfl⟩
      rw [underlying, he, if_neg Bool.false_ne_true]
      rfl
  have hlen : (slice (s.faultyImage d buffer faults) 0 size).length ≤ sectorSize := by
    rwa [length_slice]
  have hsector : (s.withFaults faults).writeSector d buffer size =
      ((b.vfsBlockWrite (s.inode (s.file d)).startSector
        (slice (s.faultyImage d buffer faults) 0 size)).1,
      { s with
        writeBuf := s.faultyImage d buffer faults
        block := (b.vfsBlockWrite (s.inode (s.file d)).startSector
          (slice (s.faultyImage d buffer faults) 0 size)).2 }) := by
    rw [← heq]
    have hr : (s.withFaults faults).block.vfsBlockRead
        ((s.withFaults faults).inode ((s.withFaults faults).openFiles d).inodeIdx).startSector
          (s.withFaults faults).writeBuf sectorSize = _ :=
      hread.vfsBlockRead_eq hstart s.writeBuf
    simp only [writeSector]
    rw [hr]
    rfl
  rw [hsector, hb.vfsBlockWrite_eq hstart hlen, hfails]
  cases hf : writeFails faults with
  | true =>
    refine ⟨b.next, hb.next, ?_, rfl⟩
    rw [faultySector, hf, if_pos rfl]
    exact hflash
  | false =>
    refine ⟨b.next.perform _, ⟨hb.initialized, hb.sectorCount⟩, ?_, rfl⟩
    rw [faultySector, hf, if_neg Bool.false_ne_true, ← hmedium]
    simp only [VfsBlock.perform, VfsBlock.next, Step.apply, hflash, Function.update_self,
      Function.update_idem]

/-! ### The file -/

theorem flash_erase_of_ne (s : Vfs) {sector : UInt32} {a : ℕ} (h : a ≠ sector.toNat) :
    (s.erase sector).block.flash a = s.block.flash a := by
  rw [erase, VfsBlock.vfsBlockErase]
  split_ifs
  · rfl
  · rfl
  · exact Function.update_of_ne h ..

theorem flash_write_of_ne (s : Vfs) {sector : UInt32} (data : List UInt8) {a : ℕ}
    (h : a ≠ sector.toNat) : (s.write sector data).block.flash a = s.block.flash a := by
  rw [write, VfsBlock.vfsBlockWrite]
  split_ifs
  · rfl
  · rfl
  · exact Function.update_of_ne h ..

theorem flash_vfsBlockCalcCrc32 (b : VfsBlock) (data : List UInt8) :
    (b.vfsBlockCalcCrc32 data).2.flash = b.flash := by
  simp only [VfsBlock.vfsBlockCalcCrc32, VfsBlock.initCrcTable]
  split_ifs
  · rfl
  · rfl

/-- Of the sectors, only the first one is written with the superblock. -/
theorem flash_vfsSyncSuperblock_of_ne (s : Vfs) {a : ℕ} (h : a ≠ 0) :
    s.vfsSyncSuperblock.block.flash a = s.block.flash a := by
  simp only [vfsSyncSuperblock]
  rw [flash_write_of_ne _ _ h, flash_erase_of_ne _ h]
  simp only [flash_vfsBlockCalcCrc32]

/-- The end of `vfs_write` leaves the bytes of the file, and the file has the position of the
    descriptor in it. -/
theorem advance_spec (h : Mounted s) (hopen : (s.openFiles d).isOpen = true) (size : ℕ) :
    (s.advance d size).sectorOf (s.file d) = s.sectorOf (s.file d) ∧
      ((s.advance d size).inode (s.file d)).sizeBytes.toNat =
        max (s.inode (s.file d)).sizeBytes.toNat (s.advanced d size).cursor.toNat := by
  have hne := startSector_ne_zero_iff.1 (h.desc d hopen).1
  by_cases hlt : (s.inode (s.file d)).sizeBytes < (s.advanced d size).cursor
  · have hcode : s.advance d size = (({ s with
        openFiles := Function.update s.openFiles d (s.advanced d size) } : Vfs).setInode (s.file d)
          { s.inode (s.file d) with
            sizeBytes := (s.advanced d size).cursor }).vfsSyncSuperblock := if_pos hlt
    have hinode : (s.advance d size).inode (s.file d) = { s.inode (s.file d) with
        sizeBytes := (s.advanced d size).cursor } := by
      rw [hcode, inode, inodes_vfsSyncSuperblock]
      exact Function.update_self ..
    rw [UInt32.lt_iff_toNat_lt] at hlt
    rw [sectorOf, hinode, Nat.max_eq_right (Nat.le_of_lt hlt)]
    refine ⟨?_, rfl⟩
    rw [hcode]
    exact flash_vfsSyncSuperblock_of_ne _ hne
  · have hle := UInt32.not_lt.1 hlt
    rw [advance_of_le hle]
    exact ⟨rfl, (Nat.max_eq_left (UInt32.le_iff_toNat_le.1 hle)).symm⟩

/-- A run of bytes has some bytes, one by one. -/
theorem slice_eq_iff {m : Memory} {a : ℕ} {bs : List UInt8} :
    slice m a bs.length = bs ↔ ∀ j < bs.length, m (a + j) = bs.getD j 0 := by
  constructor
  · intro h j hj
    rw [← h, getD_slice hj]
  · intro h
    refine List.ext_getElem (by simp) fun j hj hj' => ?_
    rw [← List.getD_eq_getElem (d := 0) _ hj, ← List.getD_eq_getElem (d := 0) _ hj', ← h j hj',
      getD_slice hj']

/-- The file system when `vfs_write` has programmed the sector, or failed to. -/
def faultyWritten (s : Vfs) (d : Fin 8) (buffer : List UInt8) (faults : List Bool)
    (b : VfsBlock) : Vfs :=
  { s with writeBuf := s.faultyImage d buffer faults, block := b }

theorem Accepts.vfsWrite_withFaults (ha : Accepts w s d buffer) (h : Mounted s)
    (faults : List Bool) :
    ∃ b : VfsBlock, b.Usable ∧ b.flash = Function.update s.block.flash
        (s.inode (s.file d)).startSector.toNat
          (s.faultySector d buffer faults (w.wrap (s.cursor d + buffer.length))) ∧
      (s.withFaults faults).vfsWrite w (d : ℕ) buffer =
        if writeFails faults then (.error .ioError, s.faultyWritten d buffer faults b)
        else (.ok buffer.length,
          (s.faultyWritten d buffer faults b).advance d buffer.length) := by
  obtain ⟨b, hb, hflash, heq⟩ := writeSector_withFaults h d buffer faults ha.fits
  refine ⟨b, hb, hflash, ?_⟩
  have hcode : (s.withFaults faults).writeSector d buffer (w.wrap
      (((s.withFaults faults).openFiles d).cursor.toNat + buffer.length)) = _ := heq
  have hfits : ¬sectorSize < w.wrap
      (((s.withFaults faults).openFiles d).cursor.toNat + buffer.length) := Nat.not_lt.2 ha.fits
  rw [Vfs.vfsWrite, fd?_eq]
  simp only
  rw [if_neg (by simp [withFaults, h.ready]),
    if_neg (by simp [withFaults, ha.isOpen, ha.writable]), if_neg hfits, hcode]
  cases writeFails faults with
  | true => rfl
  | false => rfl

/-- An error leaves the file as it was, if it was not erased or was erased before. -/
theorem untouched_iff {b : VfsBlock} {size : ℕ} (hfails : writeFails faults = true)
    (hflash : b.flash = Function.update s.block.flash (s.inode (s.file d)).startSector.toNat
      (s.faultySector d buffer faults size)) :
    Untouched s (s.faultyWritten d buffer faults b) d ↔
      eraseFails faults = true ∨ ∀ c ∈ s.content (s.file d), c = 0xFF := by
  have hcontent : (s.faultyWritten d buffer faults b).content (s.file d) =
      slice (underlying faults (s.sectorOf (s.file d))) 0
        (s.inode (s.file d)).sizeBytes.toNat := by
    rw [faultySector, hfails, if_pos rfl] at hflash
    rw [content]
    simp only [faultyWritten, hflash, inode]
    exact congrArg (slice · 0 _) (Function.update_self ..)
  have hiff : Untouched s (s.faultyWritten d buffer faults b) d ↔
      (s.faultyWritten d buffer faults b).content (s.file d) = s.content (s.file d) :=
    ⟨Untouched.content, fun heq => ⟨heq, rfl, rfl⟩⟩
  rw [hiff, hcontent]
  cases he : eraseFails faults with
  | true =>
    refine iff_of_true ?_ (.inl rfl)
    rw [underlying, he, if_pos rfl]
    rfl
  | false =>
    -- The file is erased: it is as before if it was blank.
    have hblank : slice blank 0 (s.inode (s.file d)).sizeBytes.toNat =
        List.replicate (s.inode (s.file d)).sizeBytes.toNat 0xFF :=
      slice_written (show [].length ≤ (s.inode (s.file d)).sizeBytes.toNat from Nat.zero_le _)
    rw [underlying, he, if_neg Bool.false_ne_true, hblank, eq_comm, List.eq_replicate_iff,
      length_content, or_iff_right Bool.false_ne_true]
    exact and_iff_right rfl

/-- What `vfs_write` programs, up to the end of the bytes. -/
theorem faultySector_eq (hfails : writeFails faults = false)
    (hfits : s.cursor d + buffer.length ≤ sectorSize) {x : ℕ}
    (hx : x < s.cursor d + buffer.length) :
    s.faultySector d buffer faults (s.cursor d + buffer.length) x =
      s.block.medium.cell.program (underlying faults (s.sectorOf (s.file d)) x)
        (if x < s.cursor d then s.copied (s.file d) faults x
          else buffer.getD (x - s.cursor d) 0) := by
  have himage : s.faultyImage d buffer faults x =
      if x < s.cursor d then s.copied (s.file d) faults x else buffer.getD (x - s.cursor d) 0 := by
    rw [faultyImage]
    by_cases hbefore : x < s.cursor d
    · rw [blit_of_notMem (.inl hbefore), if_pos hbefore, copied]
      split_ifs
      · rfl
      · exact blit_slice_zero (by omega)
    · rw [if_neg hbefore, blit, if_pos ⟨by omega, hx⟩]
  rw [faultySector, hfails, if_neg Bool.false_ne_true, Cell.programAll, length_slice, if_pos hx,
    getD_slice hx, Nat.zero_add, himage]

/-- The file after a write without an error: its bytes are those programmed, up to the end of
    the file or of the write. -/
theorem advance_faultyWritten (h : Mounted s) (ha : Accepts w s d buffer) {b : VfsBlock}
    (hb : b.Usable) (hflash : b.flash = Function.update s.block.flash
      (s.inode (s.file d)).startSector.toNat
        (s.faultySector d buffer faults (w.wrap (s.cursor d + buffer.length)))) :
    let s' := (s.faultyWritten d buffer faults b).advance d buffer.length
    let sector := s.faultySector d buffer faults (w.wrap (s.cursor d + buffer.length))
    s'.sectorOf (s.file d) = sector ∧ s'.content (s.file d) = slice sector 0
      (max (s.inode (s.file d)).sizeBytes.toNat (w.wrap (s.cursor d + buffer.length))) := by
  have ht : Mounted (s.faultyWritten d buffer faults b) := h.congr rfl hb rfl rfl
  obtain ⟨hsector, hsize⟩ := advance_spec ht ha.isOpen buffer.length
  have hend : ((s.faultyWritten d buffer faults b).advanced d buffer.length).cursor.toNat =
      w.wrap (s.cursor d + buffer.length) := toNat_cursor ha.fits
  have hprogrammed : (s.faultyWritten d buffer faults b).sectorOf (s.file d) =
      s.faultySector d buffer faults (w.wrap (s.cursor d + buffer.length)) := by
    rw [sectorOf]
    simp only [faultyWritten, hflash, inode]
    exact Function.update_self ..
  have hfile : (s.faultyWritten d buffer faults b).file d = s.file d := rfl
  rw [hfile] at hsector hsize
  rw [hprogrammed] at hsector
  rw [hend] at hsize
  refine ⟨hsector, ?_⟩
  rw [content, hsize, ← hsector]
  rfl

/-- Without an error, the file has the bytes if what is programmed is what shall be there. -/
theorem wrote_iff (h : Mounted s) (ha : Accepts w s d buffer) {b : VfsBlock}
    (hb : b.Usable) (hfails : writeFails faults = false)
    (hflash : b.flash = Function.update s.block.flash (s.inode (s.file d)).startSector.toNat
      (s.faultySector d buffer faults (w.wrap (s.cursor d + buffer.length)))) :
    Wrote s ((s.faultyWritten d buffer faults b).advance d buffer.length) d buffer ↔
      s.ProgramsWhole d buffer faults := by
  obtain ⟨hsector, hcontent⟩ := advance_faultyWritten h ha hb hflash
  by_cases hfits : s.cursor d + buffer.length ≤ sectorSize
  · have hwrap : w.wrap (s.cursor d + buffer.length) = s.cursor d + buffer.length :=
      wrap_eq (Nat.lt_of_le_of_lt hfits (by decide))
    rw [hwrap] at hcontent hsector
    have hbytes : ((((s.faultyWritten d buffer faults b).advance d buffer.length).content
        (s.file d)).drop (s.cursor d)).take buffer.length = slice
          (s.faultySector d buffer faults (s.cursor d + buffer.length)) (s.cursor d)
            buffer.length := by
      rw [hcontent, drop_slice, take_slice, Nat.zero_add, Nat.min_eq_left (by omega)]
    constructor
    · rintro ⟨hwritten, hbefore⟩
      rw [hbytes, slice_eq_iff] at hwritten
      rw [hsector] at hbefore
      refine ⟨hfits, fun x hx => ?_, fun j hj => ?_⟩
      · have hbyte := eq_of_slice_eq hbefore ⟨Nat.zero_le x, by omega⟩
        rwa [faultySector_eq hfails hfits (by omega), if_pos hx] at hbyte
      · have hbyte := hwritten j hj
        rwa [faultySector_eq hfails hfits (by omega), if_neg (by omega),
          Nat.add_sub_cancel_left] at hbyte
    · rintro ⟨_, hbefore, hwritten⟩
      constructor
      · rw [hbytes, slice_eq_iff]
        intro j hj
        rw [faultySector_eq hfails hfits (by omega), if_neg (by omega), Nat.add_sub_cancel_left]
        exact hwritten j hj
      · rw [hsector]
        refine slice_congr fun x _ hx => ?_
        rw [faultySector_eq hfails hfits (by omega), if_pos (by omega)]
        exact hbefore x (by omega)
  · -- In 32 bits, the end of the bytes may wrap around: the file does not have as many.
    refine iff_of_false (fun hwrote => ?_) fun hwhole => hfits hwhole.fits
    have hlength := congrArg List.length hwrote.bytes
    have hcursor : s.cursor d ≤ sectorSize := (h.desc d ha.isOpen).2
    have hold := (h.slot (s.file d)).sizeBytes
    have hnew : w.wrap (s.cursor d + buffer.length) ≤ sectorSize := ha.fits
    rw [hcontent, List.length_take, List.length_drop, length_slice] at hlength
    omega

/-- With any failures of the driver, a write is atomic if and only if it is refused or goes
    well. -/
theorem Mounted.atomic_iff (h : Mounted s) (fd : ℤ) (buffer : List UInt8)
    (faults : List Bool) : WriteAtomic w s fd buffer faults ↔
      ∀ d : Fin 8, fd = (d : ℕ) → Accepts w s d buffer → s.GoesWell d buffer faults := by
  refine forall_congr' fun d => forall_congr' fun hfd => ?_
  subst hfd
  by_cases ha : Accepts w s d buffer
  · obtain ⟨b, hb, hflash, heq⟩ := ha.vfsWrite_withFaults h faults
    rw [heq, forall_prop_of_true ha, GoesWell]
    cases hfails : writeFails faults with
    | true => exact untouched_iff hfails hflash
    | false => exact wrote_iff h ha hb hfails hflash
  · rcases vfsWrite_refused_or (h.withFaults faults).ready w (d : ℕ) buffer with
      ⟨status, heq⟩ | ⟨e, he, hae⟩
    · rw [heq]
      exact iff_of_true ⟨rfl, rfl, rfl⟩ fun ha' => absurd ha' ha
    · obtain rfl : d = e := Fin.ext (Int.ofNat.inj he)
      exact absurd ⟨hae.isOpen, hae.writable, hae.fits⟩ ha

/-- After any run, with any failures before, a write is atomic with any failures if and only if
    it is refused or goes well. -/
theorem writeAtomic_iff (h : ReachableWithFaults w s) (fd : ℤ) (buffer : List UInt8)
    (faults : List Bool) : WriteAtomic w s fd buffer faults ↔
      ∀ d : Fin 8, fd = (d : ℕ) → Accepts w s d buffer → s.GoesWell d buffer faults :=
  h.mounted.atomic_iff fd buffer faults

theorem reachable_macroOpened : Reachable .bits32 macroOpened :=
  reachable_formatted.call (.vfsOpen (ascii "macro.txt") oWronly)

theorem accepts_macroOpened : Accepts .bits32 macroOpened 0 (ascii "s") :=
  ⟨by decide +kernel, by decide +kernel, by decide +kernel⟩

/-- At the start of a file, nothing is copied, and the read may fail. -/
theorem writeAtomic_iff_start : WriteAtomic .bits32 macroOpened 0 (ascii "s") [true] := by
  have hreach : ReachableWithFaults .bits32 macroOpened := .run reachable_macroOpened
  rw [writeAtomic_iff hreach]
  intro d hd _
  obtain rfl : d = 0 := by
    rw [Fin.ext_iff]
    exact Int.natCast_eq_zero.1 hd.symm
  rw [GoesWell, if_neg (by decide)]
  constructor
  · decide +kernel
  · decide +kernel
  · decide +kernel

/-- If only the write of a byte at the start of the default macro file fails, the file is erased. -/
theorem macro_lost_after_error : Reachable .bits32 macroOpened ∧
    ¬WriteAtomic .bits32 macroOpened 0 (ascii "s") [false, false, true] := by
  refine ⟨reachable_macroOpened, fun hatomic => ?_⟩
  rw [reachable_macroOpened.inv.mounted.atomic_iff] at hatomic
  rcases hatomic 0 rfl accepts_macroOpened with herase | hblank
  · cases herase
  · revert hblank
    decide +kernel

/-! ## Opening -/

/-- The files, their contents and the descriptors are as before. -/
structure Unchanged (s s' : Vfs) : Prop where
  inodes : s'.superblock.inodes = s.superblock.inodes
  fileCount : s'.superblock.fileCount = s.superblock.fileCount
  content : ∀ i, s'.content i = s.content i
  openFiles : s'.openFiles = s.openFiles

/-- `vfs_open` changes nothing if it gives an error. -/
def OpenAtomic (s : Vfs) (path : List UInt8) (flags : UInt32) : Prop :=
  ∀ status, (s.vfsOpen path flags).1 = .error status → Unchanged s (s.vfsOpen path flags).2

/-- A file is to be created, there is a slot for it, and there is no descriptor. -/
structure LacksDescriptor (s : Vfs) (path : List UInt8) (flags : UInt32) : Prop where
  ready : s.ready = true
  creat : flags &&& oCreat ≠ 0
  absent : ∀ i, (s.inode i).inUse ≠ 0 →
    ¬strncmpEq (s.inode i).name.toList (fname path) maxFilenameLen
  slot : ∃ i, (s.inode i).inUse = 0
  descriptors : ∀ d, (s.openFiles d).isOpen = true

theorem findInode_eq_none_iff {name : List UInt8} : s.findInode name = none ↔
    ∀ i, (s.inode i).inUse ≠ 0 → ¬strncmpEq (s.inode i).name.toList name maxFilenameLen := by
  simp [findInode]

theorem freeInode_eq_none_iff : s.freeInode = none ↔ ∀ i, (s.inode i).inUse ≠ 0 := by
  simp [freeInode]

theorem freeFd_eq_none_iff : s.freeFd = none ↔ ∀ d, (s.openFiles d).isOpen = true := by
  simp [freeFd]

theorem Unchanged.refl (s : Vfs) : Unchanged s s := ⟨rfl, rfl, fun _ => rfl, rfl⟩

/-- Without a descriptor, the file that was created is in the table. -/
theorem not_openAtomic_of_lacksDescriptor {path : List UInt8} {flags : UInt32}
    (h : LacksDescriptor s path flags) : ¬OpenAtomic s path flags := by
  intro hatomic
  obtain ⟨i, hfree⟩ := Option.ne_none_iff_exists'.1 (mt freeInode_eq_none_iff.1 fun hused =>
    h.slot.elim fun i hi => hused i hi)
  have htarget := targetInode_of_creat (findInode_eq_none_iff.2 h.absent) h.creat hfree
  rcases vfsOpen_of_targetInode h.ready htarget with ⟨-, heq⟩ | ⟨d, hd, -⟩
  · have hinodes := (hatomic .busy (congrArg Prod.fst heq)).inodes
    have hcreated : (s.create i (fname path) flags).inode i = s.inode i := by
      rw [heq] at hinodes
      exact congrFun hinodes i
    rw [inode_create] at hcreated
    have huse := congrArg VfsInode.inUse hcreated
    rw [freeInode_inUse hfree] at huse
    cases huse
  · have hnone := freeFd_eq_none_iff.2 h.descriptors
    rw [freeFd_create] at hd
    cases hnone.symm.trans hd

/-- A call that fails changes nothing if and only if it was not for a descriptor that it created
    a file. -/
theorem openAtomic_iff (s : Vfs) (path : List UInt8) (flags : UInt32) :
    OpenAtomic s path flags ↔ ¬LacksDescriptor s path flags := by
  refine ⟨fun hatomic h => not_openAtomic_of_lacksDescriptor h hatomic,
    fun hlacks status herr => ?_⟩
  by_cases hready : s.ready = true
  swap
  · obtain ⟨_, heq⟩ := vfsOpen_of_not_ready hready path flags
    rw [heq]
    exact .refl s
  rcases s.targetInode_cases (fname path) flags with
    ⟨_, htarget⟩ | ⟨i, -, htarget⟩ | ⟨i, hfind, hfree, hcreat, htarget⟩
  · rw [vfsOpen_of_targetInode_error hready htarget]
    exact .refl s
  · rcases vfsOpen_of_targetInode hready htarget with ⟨-, heq⟩ | ⟨d, -, heq⟩
    · rw [heq]
      exact .refl s
    · cases (congrArg Prod.fst heq).symm.trans herr
  · rcases vfsOpen_of_targetInode hready htarget with ⟨hnone, -⟩ | ⟨d, -, heq⟩
    · -- The file would be created in vain.
      rw [freeFd_create] at hnone
      exact absurd ⟨hready, hcreat, findInode_eq_none_iff.1 hfind, ⟨i, freeInode_inUse hfree⟩,
        freeFd_eq_none_iff.1 hnone⟩ hlacks
    · cases (congrArg Prod.fst heq).symm.trans herr

/-- The default macro file opened eight times. -/
def allOpened : Vfs :=
  (List.replicate 8 (Call.vfsOpen (ascii "macro.txt") oRdonly)).foldl (exec .bits32) formatted

theorem reachable_foldl_exec (h : Reachable w s) (calls : List Call) :
    Reachable w (calls.foldl (exec w) s) := by
  induction calls generalizing s with
  | nil => exact h
  | cons c calls ih => exact ih (h.call c)

/-- A new file is created, though it cannot be opened. -/
theorem created_though_busy : Reachable .bits32 allOpened ∧
    ¬OpenAtomic allOpened (ascii "new.txt") (oWronly ||| oCreat) := by
  refine ⟨reachable_foldl_exec reachable_formatted _, not_openAtomic_of_lacksDescriptor ?_⟩
  exact ⟨by decide +kernel, by decide +kernel, by decide +kernel, by decide +kernel,
    by decide +kernel⟩

end Vfs

end SliverOS
