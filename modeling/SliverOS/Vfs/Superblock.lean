import SliverOS.Vfs.Block

/-!
# The superblock

The inodes and the superblock of `os/vfs/vfs.c`, and the bytes they are stored
as, the low byte of a number first: the byte at each offset of the structure
(`VfsSuperblock.byte`), and the structure read back (`VfsSuperblock.ofMemory`).

A superblock stored whole is read back as it is (`ofMemory_eq`). When only the
first `j` bytes of it are there, and the others erased (`VfsSuperblock.Torn`), an
inode has its name, place and size if these are there (`Torn.file_eq`), and
otherwise a size that no file has (`Torn.le_sizeBytes`).
-/

namespace SliverOS

open Bytes Flash

/-! ## Numbers in memory -/

/-- The byte of a number stored in four, at an offset. -/
def leByte (v : UInt32) (k : ℕ) : UInt8 := (toLE 4 v.toNat).getD k 0

/-- The number stored in four bytes. -/
def readU32 (m : Memory) (a : ℕ) : UInt32 := UInt32.ofNat (ofLE (slice m a 4))

theorem readU32_of_slice {m : Memory} {a : ℕ} {v : UInt32} (h : slice m a 4 = toLE 4 v.toNat) :
    readU32 m a = v := by
  rw [readU32, h, ofLE_toLE, Nat.mod_eq_of_lt (by exact v.toNat_lt), UInt32.ofNat_toNat]

theorem toNat_readU32 (m : Memory) (a : ℕ) : (readU32 m a).toNat = ofLE (slice m a 4) := by
  have hlt := ofLE_lt (slice m a 4)
  rw [length_slice] at hlt
  rw [readU32, UInt32.toNat_ofNat_of_lt' (by simpa using hlt)]

theorem readU32_eq {m : Memory} {a : ℕ} {v : UInt32} (h : ∀ k < 4, m (a + k) = leByte v k) :
    readU32 m a = v := by
  have hslice : slice m a 4 = toLE 4 v.toNat := by
    refine List.ext_getElem (by simp) fun k hk hk' => ?_
    rw [length_slice] at hk
    have := h k hk
    simp only [leByte, List.getD_eq_getElem?_getD, List.getElem?_eq_getElem hk',
      Option.getD_some] at this
    simpa [slice] using this
  exact readU32_of_slice hslice

/-- Numbers that are the same have the same bytes. -/
theorem slice_eq_of_readU32 {m m' : Memory} {a : ℕ} (h : readU32 m a = readU32 m' a) :
    slice m a 4 = slice m' a 4 := by
  refine ofLE_inj (by simp) ?_
  rw [← toNat_readU32, h, toNat_readU32]

/-- A number with its last byte erased. -/
theorem le_readU32 {m : Memory} {a : ℕ} (h : m (a + 3) = 0xFF) :
    255 * 2 ^ 24 ≤ (readU32 m a).toNat := by
  rw [toNat_readU32]
  simp only [slice, List.range_succ, List.range_zero, List.nil_append, List.cons_append,
    List.map_cons, List.map_nil, ofLE, h]
  have h255 : (0xFF : UInt8).toNat = 255 := rfl
  omega

/-- A number some of whose bytes are erased has not become smaller. -/
theorem readU32_le_of_erased {m m' : Memory} {a : ℕ}
    (h : ∀ k < 4, m' (a + k) = m (a + k) ∨ m' (a + k) = 0xFF) : readU32 m a ≤ readU32 m' a := by
  rw [UInt32.le_iff_toNat_le, toNat_readU32, toNat_readU32]
  refine ofLE_mono (List.forall₂_iff_get.2 ⟨by simp, fun k hk _ => ?_⟩)
  rw [length_slice] at hk
  have hbyte : m (a + k) ≤ m' (a + k) := by
    rcases h k hk with heq | heq
    · exact UInt8.le_of_eq heq.symm
    · rw [heq]
      exact UInt8.le_iff_toNat_le.2 (Nat.le_of_lt_succ (m (a + k)).toNat_lt)
  simpa [slice] using hbyte

/-! ## The structures -/

/-- `VFS_MAX_FILENAME_LEN`. -/
def maxFilenameLen : ℕ := 32

/-- `vfs_inode_t`. -/
structure VfsInode where
  name : Vector UInt8 32
  startSector : UInt32
  sizeBytes : UInt32
  flags : UInt32
  inUse : UInt32
  deriving DecidableEq

/-- `vfs_superblock_t`, with its `VFS_MAX_FILES` inodes. -/
structure VfsSuperblock where
  magic : UInt32
  fileCount : UInt32
  inodes : Fin 16 → VfsInode
  crc32 : UInt32

/-- An inode of zeros. -/
def VfsInode.zero : VfsInode := ⟨Vector.replicate 32 0, 0, 0, 0, 0⟩

/-- The byte of an inode at an offset. -/
def VfsInode.byte (ino : VfsInode) (k : ℕ) : UInt8 :=
  if k < 32 then ino.name[k]?.getD 0
  else if k < 36 then leByte ino.startSector (k - 32)
  else if k < 40 then leByte ino.sizeBytes (k - 36)
  else if k < 44 then leByte ino.flags (k - 40)
  else leByte ino.inUse (k - 44)

/-- The inode stored at an address. -/
def VfsInode.ofMemory (m : Memory) (a : ℕ) : VfsInode where
  name := Vector.ofFn fun k => m (a + k)
  startSector := readU32 m (a + 32)
  sizeBytes := readU32 m (a + 36)
  flags := readU32 m (a + 40)
  inUse := readU32 m (a + 44)

namespace VfsInode

variable {m : Memory} {a : ℕ} {ino : VfsInode}

/-- The fields of an inode are read back as far as its bytes are there. -/
theorem ofMemory_name (h : ∀ k < 32, m (a + k) = ino.byte k) : (ofMemory m a).name = ino.name := by
  refine Vector.ext fun k hk => ?_
  simp [ofMemory, h k hk, byte, hk]

theorem ofMemory_startSector (h : ∀ k < 36, m (a + k) = ino.byte k) :
    (ofMemory m a).startSector = ino.startSector := by
  refine readU32_eq fun k hk => ?_
  rw [Nat.add_assoc, h _ (by omega), byte, if_neg (by omega), if_pos (by omega),
    Nat.add_sub_cancel_left]

theorem ofMemory_sizeBytes (h : ∀ k < 40, m (a + k) = ino.byte k) :
    (ofMemory m a).sizeBytes = ino.sizeBytes := by
  refine readU32_eq fun k hk => ?_
  rw [Nat.add_assoc, h _ (by omega), byte, if_neg (by omega), if_neg (by omega),
    if_pos (by omega), Nat.add_sub_cancel_left]

theorem ofMemory_flags (h : ∀ k < 44, m (a + k) = ino.byte k) :
    (ofMemory m a).flags = ino.flags := by
  refine readU32_eq fun k hk => ?_
  rw [Nat.add_assoc, h _ (by omega), byte, if_neg (by omega), if_neg (by omega),
    if_neg (by omega), if_pos (by omega), Nat.add_sub_cancel_left]

theorem ofMemory_inUse (h : ∀ k < 48, m (a + k) = ino.byte k) :
    (ofMemory m a).inUse = ino.inUse := by
  refine readU32_eq fun k hk => ?_
  rw [Nat.add_assoc, h _ (by omega), byte, if_neg (by omega), if_neg (by omega),
    if_neg (by omega), if_neg (by omega), Nat.add_sub_cancel_left]

/-- An inode stored whole is read back. -/
theorem ofMemory_eq (h : ∀ k < 48, m (a + k) = ino.byte k) : ofMemory m a = ino := by
  have hname := ofMemory_name fun k (hk : k < 32) => h k (by omega)
  have hstart := ofMemory_startSector fun k (hk : k < 36) => h k (by omega)
  have hsize := ofMemory_sizeBytes fun k (hk : k < 40) => h k (by omega)
  have hflags := ofMemory_flags fun k (hk : k < 44) => h k (by omega)
  have huse := ofMemory_inUse h
  obtain ⟨name, startSector, sizeBytes, flags, inUse⟩ := ino
  simp only [ofMemory] at hname hstart hsize hflags huse ⊢
  rw [hname, hstart, hsize, hflags, huse]

end VfsInode

namespace VfsSuperblock

/-- A superblock of zeros. -/
def zero : VfsSuperblock := ⟨0, 0, fun _ => .zero, 0⟩

/-- `sizeof(vfs_superblock_t)`. -/
def size : ℕ := 780

/-- The byte of a superblock at an offset. -/
def byte (sb : VfsSuperblock) (x : ℕ) : UInt8 :=
  if x < 4 then leByte sb.magic x
  else if x < 8 then leByte sb.fileCount (x - 4)
  else if x < 776 then (sb.inodes (Fin.ofNat 16 ((x - 8) / 48))).byte ((x - 8) % 48)
  else leByte sb.crc32 (x - 776)

/-- The bytes of a superblock. -/
def bytes (sb : VfsSuperblock) : List UInt8 := (List.range size).map sb.byte

/-- The superblock stored at the start of a memory. -/
def ofMemory (m : Memory) : VfsSuperblock where
  magic := readU32 m 0
  fileCount := readU32 m 4
  inodes i := .ofMemory m (8 + 48 * i)
  crc32 := readU32 m 776

@[simp] theorem length_bytes (sb : VfsSuperblock) : sb.bytes.length = 780 := by
  simp [bytes, size]

theorem getD_bytes (sb : VfsSuperblock) {x : ℕ} (hx : x < 780) (d : UInt8) :
    sb.bytes.getD x d = sb.byte x := by
  simp [bytes, size, List.getD_eq_getElem?_getD, hx]

/-! ## Reading back -/

variable {m : Memory} {sb : VfsSuperblock} {i : Fin 16}

theorem byte_inode (sb : VfsSuperblock) (i : Fin 16) {k : ℕ} (hk : k < 48) :
    sb.byte (8 + 48 * i + k) = (sb.inodes i).byte k := by
  have hi := i.isLt
  have hdiv : (8 + 48 * i + k - 8) / 48 = (i : ℕ) := by omega
  have hmod : (8 + 48 * i + k - 8) % 48 = k := by omega
  rw [byte, if_neg (by omega), if_neg (by omega), if_pos (by omega), hdiv, hmod,
    Fin.ofNat_val_eq_self]

theorem ofMemory_magic (h : ∀ x < 4, m x = sb.byte x) : (ofMemory m).magic = sb.magic := by
  refine readU32_eq fun k hk => ?_
  rw [Nat.zero_add, h k hk, byte, if_pos hk]

/-- A superblock stored whole is read back. -/
theorem ofMemory_eq (h : ∀ x < 780, m x = sb.byte x) : ofMemory m = sb := by
  have hinode (i : Fin 16) : VfsInode.ofMemory m (8 + 48 * i) = sb.inodes i := by
    refine VfsInode.ofMemory_eq fun k hk => ?_
    have hi := i.isLt
    rw [h _ (by omega), byte_inode sb i hk]
  have hcount : (ofMemory m).fileCount = sb.fileCount := by
    refine readU32_eq fun k hk => ?_
    rw [h _ (by omega), byte, if_neg (by omega), if_pos (by omega), Nat.add_sub_cancel_left]
  have hcrc : (ofMemory m).crc32 = sb.crc32 := by
    refine readU32_eq fun k hk => ?_
    rw [h _ (by omega), byte, if_neg (by omega), if_neg (by omega), if_neg (by omega),
      Nat.add_sub_cancel_left]
  have hmagic := ofMemory_magic fun x (hx : x < 4) => h x (by omega)
  obtain ⟨magic, fileCount, inodes, crc32⟩ := sb
  simp only [ofMemory] at hmagic hcount hcrc ⊢
  rw [hmagic, hcount, hcrc, funext hinode]

/-- What is read back depends on the bytes of the superblock only. -/
theorem ofMemory_congr {m' : Memory} (h : ∀ x < 780, m x = m' x) : ofMemory m = ofMemory m' := by
  have hread (a : ℕ) (ha : a + 4 ≤ 780) : readU32 m a = readU32 m' a := by
    rw [readU32, readU32, slice_congr fun x _ hx => h x (by omega)]
  have hinode (i : Fin 16) :
      VfsInode.ofMemory m (8 + 48 * i) = VfsInode.ofMemory m' (8 + 48 * i) := by
    have hi := i.isLt
    simp only [VfsInode.ofMemory]
    rw [hread _ (by omega), hread _ (by omega), hread _ (by omega), hread _ (by omega)]
    have hname : (fun k : Fin 32 => m (8 + 48 * i + k)) = fun k : Fin 32 => m' (8 + 48 * i + k) :=
      funext fun k => h _ (by omega)
    rw [hname]
  simp only [ofMemory]
  rw [hread 0 (by omega), hread 4 (by omega), hread 776 (by omega), funext hinode]

/-! ## A superblock written in part -/

/-- The bytes of a superblock of which the first `j` were programmed. -/
theorem written_take (sb : VfsSuperblock) (j : ℕ) {x : ℕ} (hx : x < 780) :
    written (sb.bytes.take j) x = if x < j then sb.byte x else 0xFF := by
  by_cases hj : x < j
  · simp only [written, List.getD_eq_getElem?_getD, hj, List.getElem?_take_of_lt, if_true]
    rw [← List.getD_eq_getElem?_getD, getD_bytes sb hx]
  · have hlen : (sb.bytes.take j).length ≤ x :=
      Nat.le_trans (List.length_take_le _ _) (Nat.le_of_not_lt hj)
    rw [if_neg hj, written, List.getD_eq_default _ _ hlen]

/-- The first `j` bytes of a superblock are stored, and the others erased. -/
def Torn (sb : VfsSuperblock) (j : ℕ) (m : Memory) : Prop :=
  ∀ x < 780, m x = if x < j then sb.byte x else 0xFF

/-- The bytes of an inode stored in part. -/
theorem Torn.inode {j : ℕ} (h : Torn sb j m) {k : ℕ} (hk : k < 48) :
    m (8 + 48 * i + k) = if 8 + 48 * i + k < j then (sb.inodes i).byte k else 0xFF := by
  have hi := i.isLt
  rw [h _ (by omega), byte_inode sb i hk]

/-- Without the magic, there is no superblock. -/
theorem Torn.magic_ne {j : ℕ} (h : Torn sb j m) (hj : j < 4) :
    (ofMemory m).magic ≠ blockMagic := by
  intro hmagic
  have hbig := le_readU32 (m := m) (a := 0) (by rw [h 3 (by omega), if_neg (by omega)])
  have heq : readU32 m 0 = blockMagic := hmagic
  rw [heq] at hbig
  exact absurd hbig (by decide)

theorem Torn.magic_eq {j : ℕ} (h : Torn sb j m) (hj : 4 ≤ j) :
    (ofMemory m).magic = sb.magic :=
  ofMemory_magic fun x hx => by rw [h x (by omega), if_pos (by omega)]

/-- An inode stored whole is read back. -/
theorem Torn.inode_eq {j : ℕ} (h : Torn sb j m) (hj : 56 + 48 * i ≤ j) :
    (ofMemory m).inodes i = sb.inodes i :=
  VfsInode.ofMemory_eq fun k hk => by rw [h.inode hk, if_pos (by omega)]

/-- An inode stored up to its size has its name, place and size. -/
theorem Torn.file_eq {j : ℕ} (h : Torn sb j m) (hj : 48 + 48 * i ≤ j) :
    ((ofMemory m).inodes i).name = (sb.inodes i).name ∧
      ((ofMemory m).inodes i).startSector = (sb.inodes i).startSector ∧
      ((ofMemory m).inodes i).sizeBytes = (sb.inodes i).sizeBytes :=
  ⟨VfsInode.ofMemory_name fun k hk => by rw [h.inode (by omega), if_pos (by omega)],
    VfsInode.ofMemory_startSector fun k hk => by rw [h.inode (by omega), if_pos (by omega)],
    VfsInode.ofMemory_sizeBytes fun k hk => by rw [h.inode (by omega), if_pos (by omega)]⟩

/-- An inode not stored whole is taken for one in use. -/
theorem Torn.inUse_ne {j : ℕ} (h : Torn sb j m) (hj : j < 56 + 48 * i) :
    ((ofMemory m).inodes i).inUse ≠ 0 := by
  have hbig := le_readU32 (m := m) (a := 8 + 48 * i + 44)
    (by rw [Nat.add_assoc _ 44, h.inode (by omega), if_neg (by omega)])
  intro hzero
  have heq : readU32 m (8 + 48 * i + 44) = 0 := hzero
  rw [heq] at hbig
  exact absurd hbig (by decide)

/-- An inode not stored up to its size has one larger than that of any file. -/
theorem Torn.le_sizeBytes {j : ℕ} (h : Torn sb j m) (hj : j < 48 + 48 * i) :
    sectorSize < ((ofMemory m).inodes i).sizeBytes.toNat := by
  have hbig := le_readU32 (m := m) (a := 8 + 48 * i + 36)
    (by rw [Nat.add_assoc _ 36, h.inode (by omega), if_neg (by omega)])
  exact Nat.lt_of_lt_of_le (by decide) hbig

end VfsSuperblock

end SliverOS
