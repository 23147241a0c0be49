import SliverOS.Vfs.Superblock

/-!
# The file system

`os/vfs/vfs.c`: sixteen inodes in one superblock, on the first sector, and a
sector for each of the files. A path is a string of bytes; pointers passed are
not `NULL`. A function with an output returns it when its status is
`MK_STATUS_OK`, and its status otherwise.

The static buffers of `vfs_read` and `vfs_write` are the first bytes of a memory
each, so that what is beyond them is read and written too when an access is not
in range.
-/

namespace SliverOS

open Bytes Flash

/-- The width of `size_t`. -/
inductive SizeT
  | bits32
  | bits64
  deriving DecidableEq

/-- Arithmetic in `size_t`. -/
def SizeT.wrap : SizeT → ℕ → ℕ
  | bits32, n => n % 2 ^ 32
  | bits64, n => n % 2 ^ 64

/-! ## Strings -/

/-- The bytes of a text in ASCII. -/
def ascii (text : String) : List UInt8 := text.toList.map fun c => UInt8.ofNat c.toNat

/-- A string up to its terminator, if it has one. -/
def cString (bs : List UInt8) : List UInt8 := bs.takeWhile (· ≠ 0)

/-- `strncmp` of the two strings is zero. -/
def strncmpEq (a b : List UInt8) (n : ℕ) : Bool := cString (a.take n) == cString (b.take n)

/-- `strncpy` into a name. -/
def strncpy (dst : Vector UInt8 32) (src : List UInt8) (n : ℕ) : Vector UInt8 32 :=
  Vector.ofFn fun k => if k < n then (cString src).getD k 0 else dst[k]

/-- The path without its leading slash. -/
def fname : List UInt8 → List UInt8
  | 0x2F :: path => path
  | path => path

/-! ## State -/

/-- `VFS_O_RDONLY`. -/
def oRdonly : UInt32 := 0x0001

/-- `VFS_O_WRONLY`. -/
def oWronly : UInt32 := 0x0002

/-- `VFS_O_CREAT`. -/
def oCreat : UInt32 := 0x0004

/-- `VFS_O_APPEND`. -/
def oAppend : UInt32 := 0x0008

/-- `VFS_O_TRUNC`. -/
def oTrunc : UInt32 := 0x0010

/-- `vfs_file_desc_t`. -/
structure VfsFileDesc where
  inodeIdx : Fin 16
  cursor : UInt32
  flags : UInt32
  isOpen : Bool
  deriving DecidableEq

/-- The static variables, with the `VFS_MAX_OPEN_FILES` descriptors, and the
    faults reported. -/
structure Vfs where
  block : VfsBlock
  superblock : VfsSuperblock
  openFiles : Fin 8 → VfsFileDesc
  ready : Bool
  readBuf : Memory
  writeBuf : Memory
  reports : List MkFault

namespace Vfs

/-- The static variables at power on. -/
def powerOn (medium : Medium) (flash : Image) (faults : List Bool) : Vfs where
  block := ⟨medium, flash, [], faults, 0, false, Vector.replicate 256 0, false⟩
  superblock := .zero
  openFiles := fun _ => ⟨0, 0, 0, false⟩
  ready := false
  readBuf := fun _ => 0
  writeBuf := fun _ => 0
  reports := []

/-- The inode of a slot. -/
def inode (s : Vfs) (i : Fin 16) : VfsInode := s.superblock.inodes i

/-- Assignments to fields of the inode of a slot. -/
def setInode (s : Vfs) (i : Fin 16) (ino : VfsInode) : Vfs :=
  { s with superblock := { s.superblock with inodes := Function.update s.superblock.inodes i ino } }

/-- `vfs_block_erase`, its status discarded. -/
def erase (s : Vfs) (sector : UInt32) : Vfs :=
  { s with block := (s.block.vfsBlockErase sector).2 }

/-- `vfs_block_write`, its status discarded. -/
def write (s : Vfs) (sector : UInt32) (data : List UInt8) : Vfs :=
  { s with block := (s.block.vfsBlockWrite sector data).2 }

/-- `vfs_sync_superblock`. -/
def vfsSyncSuperblock (s : Vfs) : Vfs :=
  let superblock := { s.superblock with magic := blockMagic }
  let crc := s.block.vfsBlockCalcCrc32 (superblock.bytes.take 776)
  let superblock := { superblock with crc32 := crc.1 }
  ({ s with superblock, block := crc.2 }.erase 0).write 0 superblock.bytes

/-! ## Mounting -/

/-- The text of the file `macro.txt`. -/
def defaultMacro : List UInt8 := ascii "STRING Hello MicroKernel\nDELAY 200\nENTER\n"

/-- The default macro file, in `create_default_files`. -/
def seedMacro (s : Vfs) : Vfs :=
  let s := s.setInode 0 { s.inode 0 with
    name := strncpy (s.inode 0).name (ascii "macro.txt") 31
    startSector := 1
    sizeBytes := UInt32.ofNat defaultMacro.length
    inUse := 1
    flags := 0 }
  (s.erase 1).write 1 defaultMacro

/-- The default audit log, in `create_default_files`. -/
def seedLog (s : Vfs) : Vfs :=
  let s := s.setInode 1 { s.inode 1 with
    name := strncpy (s.inode 1).name (ascii "wifi_audit.log") 31
    startSector := 2
    sizeBytes := 0
    inUse := 1
    flags := 0 }
  s.erase 2

/-- `create_default_files`. -/
def createDefaultFiles (s : Vfs) : Vfs :=
  let s := s.seedMacro.seedLog
  vfsSyncSuperblock { s with superblock := { s.superblock with fileCount := 2 } }

/-- `vfs_init`. -/
def vfsInit (s : Vfs) : MkStatus × Vfs :=
  let s := { s with openFiles := fun _ => ⟨0, 0, 0, false⟩, superblock := .zero }
  let (status, block) := s.block.vfsBlockInit
  if status ≠ .ok then
    (status, { s with
      block
      reports := s.reports ++ [⟨.vfsFail, .vfs, .critical, 0x10, 0⟩] })
  else
    let (status, superblock, block) :=
      block.vfsBlockRead 0 s.superblock.byte VfsSuperblock.size
    let s := { s with block, superblock := .ofMemory superblock }
    let s := if status ≠ .ok ∨ s.superblock.magic ≠ blockMagic then
        createDefaultFiles { s with superblock := { VfsSuperblock.zero with magic := blockMagic } }
      else s
    (.ok, { s with ready := true })

/-! ## Opening -/

/-- The first inode in use with a name. -/
def findInode (s : Vfs) (name : List UInt8) : Option (Fin 16) :=
  (List.finRange 16).find? fun i =>
    (s.inode i).inUse ≠ 0 ∧ strncmpEq (s.inode i).name.toList name maxFilenameLen

/-- The first inode not in use. -/
def freeInode (s : Vfs) : Option (Fin 16) :=
  (List.finRange 16).find? fun i => (s.inode i).inUse = 0

/-- The first descriptor not open. -/
def freeFd (s : Vfs) : Option (Fin 8) :=
  (List.finRange 8).find? fun d => !(s.openFiles d).isOpen

/-- The creation of a file in a free slot, in `vfs_open`. -/
def create (s : Vfs) (i : Fin 16) (name : List UInt8) (flags : UInt32) : Vfs :=
  let s := s.setInode i {
    name := strncpy (s.inode i).name name 31
    startSector := 3 + UInt32.ofNat i
    sizeBytes := 0
    inUse := 1
    flags }
  let s := { s with superblock := { s.superblock with
    fileCount := s.superblock.fileCount + 1 } }
  (s.erase (s.inode i).startSector).vfsSyncSuperblock

/-- The inode that `vfs_open` finds or creates. -/
def targetInode (s : Vfs) (name : List UInt8) (flags : UInt32) : Except MkStatus (Fin 16) × Vfs :=
  match s.findInode name with
  | some i => (.ok i, s)
  | none =>
    if flags &&& oCreat = 0 then (.error .notFound, s)
    else match s.freeInode with
      | some i => (.ok i, s.create i name flags)
      | none => (.error .noMemory, s)

/-- The truncation of a file, in `vfs_open`. -/
def truncate (s : Vfs) (i : Fin 16) (d : Fin 8) : Vfs :=
  let s := s.setInode i { s.inode i with sizeBytes := 0 }
  let s := { s with openFiles := Function.update s.openFiles d { s.openFiles d with cursor := 0 } }
  (s.erase (s.inode i).startSector).vfsSyncSuperblock

/-- `vfs_open`: the descriptor. -/
def vfsOpen (s : Vfs) (path : List UInt8) (flags : UInt32) : Except MkStatus (Fin 8) × Vfs :=
  if !s.ready then (.error .invalidArg, s)
  else match s.targetInode (fname path) flags with
    | (.error status, s) => (.error status, s)
    | (.ok i, s) => match s.freeFd with
      | none => (.error .busy, s)
      | some d =>
        let cursor := if flags &&& oAppend ≠ 0 then (s.inode i).sizeBytes else 0
        let s := { s with openFiles := Function.update s.openFiles d ⟨i, cursor, flags, true⟩ }
        (.ok d, if flags &&& oTrunc ≠ 0 then s.truncate i d else s)

/-! ## Reading and writing -/

/-- The descriptor of a number, if it is in range. -/
def fd? (fd : ℤ) : Option (Fin 8) :=
  if h : 0 ≤ fd ∧ fd < 8 then some ⟨fd.toNat, by omega⟩ else none

/-- The number of bytes `vfs_read` copies, `to_read`. -/
def toRead (w : SizeT) (cursor sizeBytes : UInt32) (size : ℕ) : ℕ :=
  if sizeBytes.toNat < w.wrap (cursor.toNat + size) then (sizeBytes - cursor).toNat else size

/-- `vfs_read` of `size` bytes: the bytes read. -/
def vfsRead (w : SizeT) (s : Vfs) (fd : ℤ) (size : ℕ) : Except MkStatus (List UInt8) × Vfs :=
  match fd? fd with
  | none => (.error .invalidArg, s)
  | some d =>
    let desc := s.openFiles d
    if !s.ready then (.error .invalidArg, s)
    else if !desc.isOpen then (.error .invalidState, s)
    else
      let inode := s.inode desc.inodeIdx
      if inode.sizeBytes ≤ desc.cursor then (.ok [], s)
      else
        let n := toRead w desc.cursor inode.sizeBytes size
        let (status, readBuf, block) :=
          s.block.vfsBlockRead inode.startSector s.readBuf sectorSize
        let s := { s with readBuf, block }
        if status ≠ .ok then (.error status, s)
        else
          (.ok (slice readBuf desc.cursor.toNat n),
            { s with
              openFiles := Function.update s.openFiles d
                { desc with cursor := desc.cursor + UInt32.ofNat n } })

/-- The sector of a file rewritten by `vfs_write`, up to `size`: it is read, the
    bytes are copied into it, and it is erased and programmed. -/
def writeSector (s : Vfs) (d : Fin 8) (buffer : List UInt8) (size : ℕ) : MkStatus × Vfs :=
  let sector := (s.inode (s.openFiles d).inodeIdx).startSector
  let (_, writeBuf, block) := s.block.vfsBlockRead sector s.writeBuf sectorSize
  let writeBuf := blit writeBuf (s.openFiles d).cursor.toNat buffer
  let (_, block) := block.vfsBlockErase sector
  let (status, block) := block.vfsBlockWrite sector (slice writeBuf 0 size)
  (status, { s with writeBuf, block })

/-- The end of `vfs_write`: the cursor moves, and the file grows with it. -/
def advance (s : Vfs) (d : Fin 8) (size : ℕ) : Vfs :=
  let desc := s.openFiles d
  let cursor := desc.cursor + UInt32.ofNat size
  let s := { s with openFiles := Function.update s.openFiles d { desc with cursor } }
  let inode := s.inode desc.inodeIdx
  if inode.sizeBytes < cursor then
    (s.setInode desc.inodeIdx { inode with sizeBytes := cursor }).vfsSyncSuperblock
  else s

/-- `vfs_write`: the number of bytes written. -/
def vfsWrite (w : SizeT) (s : Vfs) (fd : ℤ) (buffer : List UInt8) : Except MkStatus ℕ × Vfs :=
  match fd? fd with
  | none => (.error .invalidArg, s)
  | some d =>
    let desc := s.openFiles d
    if !s.ready then (.error .invalidArg, s)
    else if !desc.isOpen ∨ desc.flags &&& oRdonly ≠ 0 then (.error .invalidState, s)
    else
      let size := w.wrap (desc.cursor.toNat + buffer.length)
      if sectorSize < size then (.error .noMemory, s)
      else
        let (status, s) := s.writeSector d buffer size
        if status ≠ .ok then (.error status, s)
        else (.ok buffer.length, s.advance d buffer.length)

/-! ## Closing and deleting -/

/-- `vfs_close`. -/
def vfsClose (s : Vfs) (fd : ℤ) : MkStatus × Vfs :=
  match fd? fd with
  | none => (.invalidArg, s)
  | some d =>
    if !(s.openFiles d).isOpen then (.invalidArg, s)
    else
      (.ok, { s with
        openFiles := Function.update s.openFiles d { s.openFiles d with isOpen := false } })

/-- The deletion of the file of a slot, in `vfs_delete`. -/
def remove (s : Vfs) (i : Fin 16) : Vfs :=
  let s := s.setInode i { s.inode i with inUse := 0 }
  let s := s.erase (s.inode i).startSector
  vfsSyncSuperblock { s with superblock := { s.superblock with
    fileCount := s.superblock.fileCount - 1 } }

/-- `vfs_delete`. -/
def vfsDelete (s : Vfs) (path : List UInt8) : MkStatus × Vfs :=
  if !s.ready then (.invalidArg, s)
  else match s.findInode (fname path) with
    | none => (.notFound, s)
    | some i => (.ok, s.remove i)

end Vfs

end SliverOS
