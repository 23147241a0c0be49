import SliverOS.Vfs.Invariant

/-!
# Reading and writing files

`vfs_read` reads the content of a file from the cursor on (`vfsRead_eq`).

`vfs_write` erases the sector of the file and programs it up to the end of what
it writes, so what the file had after that is lost (`content_vfsWrite`). A write
is thus a splice of its bytes into the content if and only if there was nothing
but erased bytes after them (`splices_iff`).
-/

namespace SliverOS

open Bytes Flash

namespace Vfs

variable {w : SizeT} {s : Vfs} {i : Fin 16} {d : Fin 8} {buffer : List UInt8}

/-- The content of the file of a slot: its first `size_bytes` bytes. -/
def content (s : Vfs) (i : Fin 16) : List UInt8 :=
  slice (s.block.flash (s.inode i).startSector.toNat) 0 (s.inode i).sizeBytes.toNat

@[simp] theorem length_content (s : Vfs) (i : Fin 16) :
    (s.content i).length = (s.inode i).sizeBytes.toNat :=
  length_slice ..

/-- The file a descriptor is open on. -/
def file (s : Vfs) (d : Fin 8) : Fin 16 := (s.openFiles d).inodeIdx

/-- The position of a descriptor. -/
def cursor (s : Vfs) (d : Fin 8) : ℕ := (s.openFiles d).cursor.toNat

/-! ## Reading -/

theorem wrap_eq {n : ℕ} (h : n < 2 ^ 32) : w.wrap n = n := by
  cases w with
  | bits32 => exact Nat.mod_eq_of_lt h
  | bits64 => exact Nat.mod_eq_of_lt (Nat.lt_trans h (by decide))

/-- As many bytes are read as asked for and there are. -/
theorem toRead_eq {cursor sizeBytes : UInt32} {n : ℕ} (hlt : cursor < sizeBytes)
    (hn : w.wrap (cursor.toNat + n) = cursor.toNat + n) :
    toRead w cursor sizeBytes n = min n (sizeBytes.toNat - cursor.toNat) := by
  have hle := UInt32.le_of_lt hlt
  rw [toRead, hn, UInt32.toNat_sub_of_le _ _ hle]
  split <;> omega

/-- What `vfs_read` reads is in the sector of the file. -/
theorem fst_vfsRead (hready : s.ready = true) (hup : s.block.Up)
    (hopen : (s.openFiles d).isOpen = true) (hstart : (s.inode (s.file d)).startSector < 19)
    (w : SizeT) (n : ℕ) : (s.vfsRead w (d : ℕ) n).1 =
      if (s.inode (s.file d)).sizeBytes ≤ (s.openFiles d).cursor then .ok []
      else .ok (slice (blit s.readBuf 0
        (slice (s.block.flash (s.inode (s.file d)).startSector.toNat) 0 sectorSize))
          (s.openFiles d).cursor.toNat
          (toRead w (s.openFiles d).cursor (s.inode (s.file d)).sizeBytes n)) := by
  have hread := hup.vfsBlockRead hstart s.readBuf (Nat.le_refl sectorSize)
  rw [file] at hread ⊢
  rw [vfsRead, fd?_eq]
  simp only
  rw [if_neg (by simp [hready]), if_neg (by simp [hopen]), hread]
  simp only [ne_eq, not_true_eq_false, if_false]
  split_ifs
  · rfl
  · rfl

/-- A descriptor that is open on a file of at most a sector, which can be read. -/
structure Readable (s : Vfs) (d : Fin 8) : Prop where
  ready : s.ready = true
  up : s.block.Up
  isOpen : (s.openFiles d).isOpen = true
  startSector : (s.inode (s.file d)).startSector < 19
  sizeBytes : (s.inode (s.file d)).sizeBytes.toNat ≤ sectorSize

theorem Inv.readable (h : Inv s) (hopen : (s.openFiles d).isOpen = true) : Readable s d :=
  ⟨h.ready, h.up, hopen, (h.slot _).lt, (h.slot _).sizeBytes⟩

/-- The end of a read before the end of the file does not wrap around. -/
def NoWrap (w : SizeT) (s : Vfs) (d : Fin 8) (n : ℕ) : Prop :=
  s.cursor d < (s.inode (s.file d)).sizeBytes.toNat → w.wrap (s.cursor d + n) = s.cursor d + n

/-- `vfs_read` reads the content from the cursor on. -/
theorem Readable.fst_vfsRead (h : Readable s d) {n : ℕ} (hn : NoWrap w s d n) :
    (s.vfsRead w (d : ℕ) n).1 = .ok (((s.content (s.file d)).drop (s.cursor d)).take n) := by
  have hsize := h.sizeBytes
  rw [content, drop_slice, take_slice, Nat.zero_add,
    Vfs.fst_vfsRead h.ready h.up h.isOpen h.startSector]
  by_cases heof : (s.inode (s.file d)).sizeBytes ≤ (s.openFiles d).cursor
  · rw [if_pos heof, cursor, Nat.sub_eq_zero_of_le (UInt32.le_iff_toNat_le.1 heof),
      Nat.min_zero]
    rfl
  have hlt := UInt32.not_le.1 heof
  rw [if_neg heof, toRead_eq hlt (hn (UInt32.lt_iff_toNat_lt.1 hlt))]
  refine congrArg Except.ok (slice_congr fun x _ hx => blit_slice_zero ?_)
  rw [UInt32.lt_iff_toNat_lt] at hlt
  omega

/-- `vfs_read` moves the descriptor past the bytes read. -/
theorem Readable.snd_vfsRead (h : Readable s d) (w : SizeT) (n : ℕ) :
    ∃ cursor readBuf, (s.vfsRead w (d : ℕ) n).2 = { s with
        readBuf, openFiles := Function.update s.openFiles d { s.openFiles d with cursor } } ∧
      (NoWrap w s d n → cursor.toNat =
        s.cursor d + min n ((s.inode (s.file d)).sizeBytes.toNat - s.cursor d)) := by
  have hread := h.up.vfsBlockRead h.startSector s.readBuf (Nat.le_refl _)
  rw [file] at hread ⊢
  rw [vfsRead, fd?_eq]
  simp only
  rw [if_neg (by simp [h.ready]), if_neg (by simp [h.isOpen]), hread]
  by_cases heof : (s.inode (s.openFiles d).inodeIdx).sizeBytes ≤ (s.openFiles d).cursor
  · -- The descriptor is at the end of the file.
    refine ⟨(s.openFiles d).cursor, s.readBuf, ?_, fun _ => ?_⟩
    · rw [if_pos heof, Function.update_eq_self]
    · rw [UInt32.le_iff_toNat_le] at heof
      rw [cursor]
      omega
  · have hlt := UInt32.not_le.1 heof
    refine ⟨_, _, by rw [if_neg heof]; rfl, fun hn => ?_⟩
    have hsize := h.sizeBytes
    have hread := toRead_eq hlt (hn (UInt32.lt_iff_toNat_lt.1 hlt))
    rw [UInt32.lt_iff_toNat_lt] at hlt
    simp only [sectorSize, file] at hsize
    rw [hread, UInt32.toNat_add, UInt32.toNat_ofNat', cursor]
    omega

/-- The bytes from the new position on are those after the bytes read. -/
theorem drop_content_cursor (s : Vfs) (d : Fin 8) (n : ℕ) :
    (s.content (s.file d)).drop
        (s.cursor d + min n ((s.inode (s.file d)).sizeBytes.toNat - s.cursor d)) =
      ((s.content (s.file d)).drop (s.cursor d)).drop n := by
  rw [← List.drop_drop]
  rcases Nat.le_total n ((s.inode (s.file d)).sizeBytes.toNat - s.cursor d) with hle | hle
  · rw [Nat.min_eq_left hle]
  · -- There is nothing after the bytes read.
    rw [Nat.min_eq_right hle, List.drop_eq_nil_of_le (by simp),
      List.drop_eq_nil_of_le (by simpa using hle)]

theorem vfsRead_eq (h : Inv s) (hopen : (s.openFiles d).isOpen = true) {n : ℕ}
    (hn : s.cursor d + n < 2 ^ 32) : (s.vfsRead w (d : ℕ) n).1 =
      .ok (((s.content (s.file d)).drop (s.cursor d)).take n) :=
  (h.readable hopen).fst_vfsRead fun _ => wrap_eq hn

/-! ## Writing -/

/-- A write rewrites the sector of the file, which grows to the end of the write. -/
theorem vfsWrite_effect (h : Inv s) (ha : Accepts w s d buffer)
    (hfits : s.cursor d + buffer.length ≤ sectorSize) :
    ((s.vfsWrite w (d : ℕ) buffer).2.inode (s.file d)).startSector =
        (s.inode (s.file d)).startSector ∧
      ((s.vfsWrite w (d : ℕ) buffer).2.inode (s.file d)).sizeBytes.toNat =
        max (s.inode (s.file d)).sizeBytes.toNat (s.cursor d + buffer.length) ∧
      (s.vfsWrite w (d : ℕ) buffer).2.block.flash (s.inode (s.file d)).startSector.toNat =
        written (s.writeData w d buffer) := by
  have hne : (s.inode (s.file d)).startSector.toNat ≠ 0 :=
    startSector_ne_zero_iff.1 (h.desc d ha.isOpen).1
  have hend : ((s.rewritten w d buffer).advanced d buffer.length).cursor.toNat =
      s.cursor d + buffer.length := by
    refine (toNat_cursor ha.fits).trans (wrap_eq ?_)
    simp only [sectorSize, cursor] at hfits
    omega
  have hflash : (s.rewritten w d buffer).block.flash (s.inode (s.file d)).startSector.toNat =
      written (s.writeData w d buffer) := by
    simp only [rewritten, VfsBlock.performAll, run_rewrite]
    exact Function.update_self ..
  rw [ha.vfsWrite h]
  -- Beyond the end of the file, the superblock is written after the sector.
  by_cases hlt : (s.inode (s.file d)).sizeBytes <
      ((s.rewritten w d buffer).advanced d buffer.length).cursor
  · obtain ⟨sb, -, hsb, heq⟩ := advance_of_lt (h.rewritten w ha.isOpen buffer).up hlt
    have hinode : (((s.rewritten w d buffer).advance d buffer.length).inode (s.file d)) =
        { s.inode (s.file d) with
          sizeBytes := ((s.rewritten w d buffer).advanced d buffer.length).cursor } := by
      simp only [heq, inode, commit, hsb]
      exact Function.update_self ..
    rw [UInt32.lt_iff_toNat_lt, hend] at hlt
    simp only [hinode, hend, Nat.max_eq_right (Nat.le_of_lt hlt)]
    refine ⟨trivial, trivial, ?_⟩
    rw [heq]
    simp only [commit, VfsBlock.performAll, List.nil_append, run_rewrite]
    rw [Function.update_of_ne hne, hflash]
  · have hle := UInt32.not_lt.1 hlt
    rw [advance_of_le hle]
    rw [UInt32.le_iff_toNat_le, hend] at hle
    exact ⟨rfl, (Nat.max_eq_left hle).symm, hflash⟩

/-- The data of a write: the sector up to the cursor, and then the bytes. -/
theorem writeData_eq (hfits : s.cursor d + buffer.length ≤ sectorSize) :
    s.writeData w d buffer =
      slice (s.block.flash (s.inode (s.file d)).startSector.toNat) 0 (s.cursor d) ++ buffer := by
  have hwrap : w.wrap ((s.openFiles d).cursor.toNat + buffer.length) =
      s.cursor d + buffer.length := wrap_eq (by
    simp only [sectorSize, cursor] at hfits
    omega)
  rw [writeData, hwrap, writeImage]
  refine (slice_blit_append _ _ _).trans (congrArg (· ++ buffer) (slice_congr fun x _ hx => ?_))
  simp only [cursor] at hfits
  exact blit_slice_zero (by omega)

/-- After a write, the file has its content up to the cursor, the bytes written,
    and erased bytes up to its old size. -/
theorem content_vfsWrite (h : Inv s) (ha : Accepts w s d buffer)
    (hk : s.cursor d ≤ (s.content (s.file d)).length)
    (hfits : s.cursor d + buffer.length ≤ sectorSize) :
    (s.vfsWrite w (d : ℕ) buffer).2.content (s.file d) =
      (s.content (s.file d)).take (s.cursor d) ++ buffer ++ List.replicate
        ((s.content (s.file d)).length - (s.cursor d + buffer.length)) 0xFF := by
  obtain ⟨hstart, hsize, hflash⟩ := vfsWrite_effect h ha hfits
  have hlen : (s.writeData w d buffer).length = s.cursor d + buffer.length := by
    simp [writeData_eq hfits]
  rw [content, hstart, hsize, hflash, slice_written (by omega), hlen, writeData_eq hfits]
  rw [length_content] at hk ⊢
  congr 1
  · rw [content, take_slice, Nat.min_eq_left hk]
  · congr 1
    omega

/-! ## Splices -/

/-- The content of a file is these bytes, and every descriptor open on it reads them. -/
def Reads (w : SizeT) (s : Vfs) (i : Fin 16) (bytes : List UInt8) : Prop :=
  s.content i = bytes ∧ ∀ d n, (s.openFiles d).isOpen = true → s.file d = i →
    s.cursor d + n < 2 ^ 32 →
      (s.vfsRead w (d : ℕ) n).1 = .ok ((bytes.drop (s.cursor d)).take n)

theorem reads_iff (h : Inv s) {bytes : List UInt8} : Reads w s i bytes ↔ s.content i = bytes := by
  refine ⟨And.left, fun hbytes => ⟨hbytes, fun d n hopen hfile hn => ?_⟩⟩
  rw [vfsRead_eq h hopen hn, hfile, hbytes]

/-- The content of a file with some bytes spliced in at a position. -/
def splice (content : List UInt8) (k : ℕ) (bytes : List UInt8) : List UInt8 :=
  content.take k ++ bytes ++ content.drop (k + bytes.length)

theorem accepts_of_ok (h : Inv s) {n : ℕ} (hok : (s.vfsWrite w (d : ℕ) buffer).1 = .ok n) :
    Accepts w s d buffer := by
  rcases vfsWrite_cases h w (d : ℕ) buffer with ⟨status, heq⟩ | ⟨e, he, ha⟩
  · rw [heq] at hok
    cases hok
  · obtain rfl : d = e := Fin.ext (Int.ofNat.inj he)
    exact ha

/-- After any run, a write within the file and the sector that succeeds splices
    its bytes into the content, for all of the readers, if and only if what the
    content has after them are erased bytes. -/
theorem splices_iff (h : Reachable w s) (d : Fin 8) (buffer : List UInt8) {n : ℕ}
    (hk : s.cursor d ≤ (s.content (s.file d)).length)
    (hfits : s.cursor d + buffer.length ≤ sectorSize)
    (hok : (s.vfsWrite w (d : ℕ) buffer).1 = .ok n) :
    Reads w (s.vfsWrite w (d : ℕ) buffer).2 (s.file d)
        (splice (s.content (s.file d)) (s.cursor d) buffer) ↔
      ∀ b ∈ (s.content (s.file d)).drop (s.cursor d + buffer.length), b = 0xFF := by
  have ha := accepts_of_ok h.inv hok
  rw [reads_iff (h.inv.vfsWrite w (d : ℕ) buffer), content_vfsWrite h.inv ha hk hfits, splice,
    List.append_cancel_left_eq, eq_comm, List.eq_replicate_iff, List.length_drop]
  exact and_iff_right rfl

/-- A flash just formatted. -/
def formatted : Vfs := mount .osfs fun _ => blank

theorem reachable_formatted : Reachable w formatted :=
  .format .osfs (by decide +kernel)

/-- The default macro file opened for writing. -/
def macroOpened : Vfs := formatted.exec .bits32 (.vfsOpen (ascii "macro.txt") oWronly)

/-- The whole of the default macro file written again. -/
theorem splices_iff_macro : Reads .bits32 (macroOpened.vfsWrite .bits32 (0 : Fin 8) defaultMacro).2
    (macroOpened.file 0) (splice (macroOpened.content (macroOpened.file 0))
      (macroOpened.cursor 0) defaultMacro) :=
  (splices_iff (reachable_formatted.call _) 0 defaultMacro (n := 41) (by decide +kernel)
    (by decide +kernel) (by decide +kernel)).2 (by decide +kernel)

/-- The first byte of the default macro file written loses the others. -/
theorem tail_lost_after_write : Reachable .bits32 macroOpened ∧
    (macroOpened.vfsWrite .bits32 (0 : Fin 8) (ascii "s")).1 = .ok 1 ∧
    ¬Reads .bits32 (macroOpened.vfsWrite .bits32 (0 : Fin 8) (ascii "s")).2
      (macroOpened.file 0) (splice (macroOpened.content (macroOpened.file 0))
        (macroOpened.cursor 0) (ascii "s")) := by
  refine ⟨reachable_formatted.call _, by decide +kernel, fun hreads => ?_⟩
  have hcontent := hreads.1
  revert hcontent
  decide +kernel

end Vfs

end SliverOS
