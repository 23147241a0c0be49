import SliverOS.Vfs.Log
import SliverOS.Vfs.Store

/-!
# The file system is a table of files

The file system seen as a table (`Vfs.abs`): the names up to their terminators, the contents in
the sectors. A sector holds the contents of its file and is erased after them (`Sound.paged`),
which every call keeps, and so every call does to the table what it is meant to do
(`Sound.exec`).

* `refines`: any calls, from the formatting of a flash on, return what they return on the table
  of files, and end with it.
-/

namespace SliverOS

open Bytes Flash Streams

/-! ## Sectors that are erased after their data -/

theorem written_rightpad (data : List UInt8) (n : ℕ) :
    written (data.rightpad n erasedByte) = written data := by
  funext x
  rw [written, written, List.rightpad]
  by_cases hx : x < data.length
  · exact List.getD_append _ _ _ _ hx
  · rw [List.getD_append_right _ _ _ _ (Nat.le_of_not_lt hx),
      List.getD_eq_default _ _ (Nat.le_of_not_lt hx)]
    exact List.getElem?_getD_replicate_default_eq ..

theorem written_nil : written [] = blank := rfl

theorem written_erased (n : ℕ) : written (List.replicate n erasedByte) = blank :=
  written_rightpad [] n

theorem slice_written_take (data : List UInt8) (n : ℕ) :
    slice (written data) 0 n = (data.take n).rightpad n erasedByte := by
  have hsame : slice (written data) 0 n = slice (written (data.take n)) 0 n := by
    refine slice_congr fun x _ hx => ?_
    rw [Nat.zero_add] at hx
    simp [written, List.getD_eq_getElem?_getD, List.getElem?_take_of_lt hx]
  rw [hsame, slice_written (List.length_take_le ..)]
  rfl

namespace Vfs

variable {w : SizeT} {s s' : Vfs} {i : Fin 16} {d : Fin 8} {bs : List UInt8}
  {path : List UInt8} {flags : UInt32}

/-! ## The table -/

/-- A file of the file system, with its contents. -/
def stored (s : Vfs) (i : Fin 16) : StoredFile where
  name := s.nameOf i
  contents := s.content i
  flags := (s.inode i).flags
  inUse := (s.inode i).inUse ≠ 0

/-- A descriptor of the file system. -/
def descriptor (s : Vfs) (d : Fin 8) : Descriptor :=
  ⟨s.file d, s.cursor d, (s.openFiles d).flags, (s.openFiles d).isOpen⟩

/-- The table that the file system is. -/
def abs (s : Vfs) : Store where
  persistent := s.block.medium.persistent
  files := s.stored
  descriptors := s.descriptor

/-- What the calls keep, besides the invariant: names are terminated, a sector is erased after
    the contents of its file, and a slot without a sector has no contents. -/
structure Sound (s : Vfs) : Prop extends Inv s where
  terminated : Terminated s
  paged : ∀ i, (s.inode i).startSector ≠ 0 →
    s.block.flash (s.inode i).startSector.toNat = written (s.content i)
  empty : ∀ i, (s.inode i).startSector = 0 → (s.inode i).sizeBytes = 0

/-- A sector with some bytes written has them as the contents, when they have the size. -/
theorem content_of_written
    (hflash : s.block.flash (s.inode i).startSector.toNat = written bs)
    (hlen : bs.length = (s.inode i).sizeBytes.toNat) : s.content i = bs := by
  rw [content, hflash, ← hlen, slice_written_take, List.take_length, List.rightpad, Nat.sub_self]
  exact List.append_nil bs

/-- A slot without contents has none whatever is in the sectors. -/
theorem content_of_empty (h : (s.inode i).sizeBytes = 0) : s.content i = [] := by
  rw [content, h]
  rfl

/-- One inode is changed, with what is in its sector, and the other files stay as they are. -/
theorem Sound.change (h : Sound s) (hinv : Inv s') (ino : VfsInode)
    (hinodes : s'.superblock.inodes = Function.update s.superblock.inodes i ino)
    (hne : ino.startSector ≠ 0) (hslot : SlotOk i ino) (hname : ino.name[(31 : Fin 32)] = 0)
    (hlen : bs.length = ino.sizeBytes.toNat)
    (hflash : ∀ n, n ≠ 0 → s'.block.flash n =
      Function.update s.block.flash ino.startSector.toNat (written bs) n) :
    Sound s' ∧ s'.stored = Function.update s.stored i
      ⟨cString ino.name.toList, bs, ino.flags, decide (ino.inUse ≠ 0)⟩ := by
  have hself : s'.inode i = ino := by rw [inode, hinodes, Function.update_self]
  have hother {j : Fin 16} (hj : j ≠ i) : s'.inode j = s.inode j := by
    rw [inode, hinodes, Function.update_of_ne hj, inode]
  have hpage : s'.block.flash ino.startSector.toNat = written bs := by
    rw [hflash _ (startSector_ne_zero_iff.1 hne), Function.update_self]
  have hpages {j : Fin 16} (hj : j ≠ i) (hstart : (s.inode j).startSector ≠ 0) :
      s'.block.flash (s.inode j).startSector.toNat =
        s.block.flash (s.inode j).startSector.toNat := by
    rw [hflash _ (startSector_ne_zero_iff.1 hstart), Function.update_of_ne]
    exact (h.slot j).sector_ne hslot hj hstart
  have hcontent : s'.content i = bs :=
    content_of_written (by rw [hself, hpage]) (by rw [hself, hlen])
  have hcontents {j : Fin 16} (hj : j ≠ i) : s'.content j = s.content j := by
    by_cases hstart : (s.inode j).startSector = 0
    · have hsize := h.empty j hstart
      rw [content_of_empty (by rw [hother hj, hsize]), content_of_empty hsize]
    · rw [content, hother hj, hpages hj hstart, content]
  refine ⟨⟨hinv, fun j => ?_, fun j hstart => ?_, fun j hstart => ?_⟩, ?_⟩
  · by_cases hj : j = i
    · rw [hj, hself]
      exact hname
    · rw [hother hj, h.terminated j]
  · by_cases hj : j = i
    · rw [hj, hself, hpage, hcontent]
    · rw [hother hj] at hstart ⊢
      rw [hpages hj hstart, hcontents hj, h.paged j hstart]
  · by_cases hj : j = i
    · rw [hj, hself] at hstart
      exact absurd hstart hne
    · rw [hother hj] at hstart ⊢
      exact h.empty j hstart
  · funext j
    by_cases hj : j = i
    · rw [hj, Function.update_self, stored, nameOf, hself, hcontent]
    · rw [Function.update_of_ne hj, stored, nameOf, hother hj, hcontents hj]
      rfl

/-- A descriptor changed leaves the files as they are. -/
theorem Sound.descriptors (h : Sound s) (hinv : Inv s') (hsb : s'.superblock = s.superblock)
    (hflash : s'.block.flash = s.block.flash) : Sound s' ∧ s'.stored = s.stored := by
  have hinode (j : Fin 16) : s'.inode j = s.inode j := by rw [inode, hsb, inode]
  have hcontent (j : Fin 16) : s'.content j = s.content j := by
    rw [content, hinode, hflash, content]
  refine ⟨⟨hinv, fun j => ?_, fun j hstart => ?_, fun j hstart => ?_⟩, ?_⟩
  · rw [hinode, h.terminated j]
  · rw [hinode] at hstart ⊢
    rw [hflash, hcontent, h.paged j hstart]
  · rw [hinode] at hstart ⊢
    exact h.empty j hstart
  · funext j
    rw [stored, nameOf, hinode, hcontent]
    rfl

theorem descriptor_update (s : Vfs) (d : Fin 8) (e : VfsFileDesc)
    (hfiles : s'.openFiles = Function.update s.openFiles d e) :
    s'.descriptor = Function.update s.descriptor d
      ⟨e.inodeIdx, e.cursor.toNat, e.flags, e.isOpen⟩ := by
  funext c
  by_cases hc : c = d
  · rw [hc, Function.update_self, descriptor, file, cursor, hfiles, Function.update_self]
  · rw [Function.update_of_ne hc, descriptor, file, cursor, hfiles, Function.update_of_ne hc]
    rfl

/-! ## Names and places -/

theorem find_abs (s : Vfs) (name : List UInt8) : s.abs.find name = s.findInode name := by
  refine congrArg (List.find? · _) (funext fun i => ?_)
  rw [Bool.decide_congr (and_congr_right fun _ => strncmpEq_name_iff)]
  simp [abs, stored]

theorem freeSlot_abs (s : Vfs) : s.abs.freeSlot = s.freeInode := by
  refine congrArg (List.find? · _) (funext fun i => ?_)
  simp [abs, stored]

theorem freeDescriptor_abs (s : Vfs) : s.abs.freeDescriptor = s.freeFd := by
  refine congrArg (List.find? · _) (funext fun d => ?_)
  exact Bool.decide_eq_false

/-! ## The calls -/

/-- The sectors after the superblock is rewritten. -/
theorem flash_commit (s : Vfs) (sb : VfsSuperblock) {n : ℕ} (hn : n ≠ 0) :
    (s.commit sb []).block.flash n = s.block.flash n := by
  simp only [commit, VfsBlock.performAll, List.nil_append, run_rewrite]
  exact Function.update_of_ne hn ..

/-- The sectors after one is erased, and the superblock rewritten. -/
theorem flash_commit_erase (s : Vfs) (sb : VfsSuperblock) (sector : ℕ) {n : ℕ} (hn : n ≠ 0) :
    (s.commit sb [.erase sector]).block.flash n =
      Function.update s.block.flash sector blank n := by
  simp only [commit, VfsBlock.performAll, run_append, run_rewrite]
  exact Function.update_of_ne hn ..

theorem Sound.create (h : Sound s) (i : Fin 16) (name : List UInt8) (flags : UInt32) :
    Sound (s.create i name flags) ∧ (s.create i name flags).abs =
      s.abs.setFile i ⟨(cString name).take 31, [], flags, true⟩ := by
  have hinv := h.toInv.create i name flags
  obtain ⟨sb, -, hsb, heq⟩ := create_eq h.up i name flags
  have hok := slotOk_newInode s i name flags
  have hflash (n : ℕ) (hn : n ≠ 0) : (s.create i name flags).block.flash n =
      Function.update s.block.flash (s.newInode i name flags).startSector.toNat (written []) n := by
    rw [heq, flash_commit_erase s sb _ hn, newInode_startSector, written_nil]
  obtain ⟨hsound, hstored⟩ := h.change hinv (s.newInode i name flags) (by rw [heq]; exact hsb)
    (hok.startSector_ne (show (1 : UInt32) ≠ 0 by decide)) hok
    ((strncpy_last ..).trans (h.terminated i)) rfl hflash
  have hname : cString (s.newInode i name flags).name.toList = (cString name).take 31 :=
    cString_strncpy (h.terminated i) name
  rw [hname] at hstored
  refine ⟨hsound, Store.ext ?_ hstored ?_⟩
  · rw [heq]
    rfl
  · funext d
    simp only [abs, descriptor, file, cursor, openFiles_create]
    rfl

theorem Sound.remove (h : Sound s) (hi : (s.inode i).inUse ≠ 0) (hinv : Inv (s.remove i)) :
    Sound (s.remove i) ∧ (s.remove i).abs = s.abs.remove i := by
  obtain ⟨sb, -, hsb, heq⟩ := remove_eq h.toInv i
  have hstart := (h.slot i).startSector_ne hi
  have hflash (n : ℕ) (hn : n ≠ 0) : (s.remove i).block.flash n =
      Function.update s.block.flash (s.inode i).startSector.toNat
        (written (List.replicate (s.content i).length erasedByte)) n := by
    rw [heq, flash_commit_erase s sb _ hn, written_erased]
  have hslot : SlotOk i { s.inode i with inUse := 0 } :=
    ⟨(h.slot i).place.imp_left fun hz => ⟨hz.1, rfl⟩, (h.slot i).sizeBytes, .inl rfl⟩
  obtain ⟨hsound, hstored⟩ := h.change hinv { s.inode i with inUse := 0 }
    (by rw [heq]; exact hsb) hstart hslot (h.terminated i) (by simp) hflash
  refine ⟨hsound, Store.ext ?_ hstored ?_⟩
  · rw [heq]
    rfl
  · rw [heq]
    rfl

/-- A descriptor opened on a file, at its start or at its end. -/
theorem Sound.opened (h : Sound s) (hi : (s.inode i).inUse ≠ 0) (d : Fin 8) (flags : UInt32) :
    Sound (s.opened i d flags) ∧ (s.opened i d flags).abs = s.abs.setDescriptor d
      ⟨i, if flags &&& oAppend ≠ 0 then (s.content i).length else 0, flags, true⟩ := by
  obtain ⟨hsound, hstored⟩ := h.descriptors (h.toInv.opened hi d flags) rfl rfl
  have hposition : (if flags &&& oAppend ≠ 0 then (s.inode i).sizeBytes else 0).toNat =
      if flags &&& oAppend ≠ 0 then (s.content i).length else 0 := by
    rw [length_content]
    split_ifs
    · rfl
    · rfl
  refine ⟨hsound, Store.ext rfl hstored ?_⟩
  rw [← hposition]
  exact descriptor_update s d _ (show (s.opened i d flags).openFiles = _ from rfl)

/-- A file just opened is emptied. -/
theorem Sound.truncate (h : Sound s) (hi : (s.inode i).startSector ≠ 0) (d : Fin 8) :
    Sound (s.truncate i d) ∧ (s.truncate i d).abs =
      (s.abs.setFile i { s.abs.files i with contents := [] }).setDescriptor d
        { s.abs.descriptors d with position := 0 } := by
  obtain ⟨sb, -, hsb, heq⟩ := truncate_eq h.toInv i d
  have hflash (n : ℕ) (hn : n ≠ 0) : (s.truncate i d).block.flash n =
      Function.update s.block.flash (s.inode i).startSector.toNat (written []) n := by
    rw [heq, flash_commit_erase _ sb _ hn, written_nil]
  obtain ⟨hsound, hstored⟩ := h.change (h.toInv.truncate hi d)
    { s.inode i with sizeBytes := 0 } (by rw [heq]; exact hsb) hi
    ((h.slot i).setSize (Nat.zero_le _)) (h.terminated i) rfl hflash
  refine ⟨hsound, Store.ext ?_ hstored ?_⟩
  · rw [heq]
    rfl
  · exact descriptor_update s d _ (openFiles_truncate s i d)

/-- A file is found, or created. -/
theorem Sound.targetInode (h : Sound s) (name : List UInt8) (flags : UInt32) :
    Sound (s.targetInode name flags).2 ∧ s.abs.target name flags =
      ((s.targetInode name flags).1, (s.targetInode name flags).2.abs) := by
  rw [Store.target, find_abs, freeSlot_abs, Vfs.targetInode]
  cases hfind : s.findInode name with
  | some i => exact ⟨h, rfl⟩
  | none =>
    simp only
    by_cases hcreat : flags &&& oCreat = 0
    · rw [if_pos hcreat, if_pos hcreat]
      exact ⟨h, rfl⟩
    · rw [if_neg hcreat, if_neg hcreat]
      cases hfree : s.freeInode with
      | none => exact ⟨h, rfl⟩
      | some i =>
        obtain ⟨hsound, habs⟩ := h.create i name flags
        exact ⟨hsound, Prod.ext rfl habs.symm⟩

theorem Sound.vfsOpen (h : Sound s) (path : List UInt8) (flags : UInt32) :
    Sound (s.vfsOpen path flags).2 ∧ s.abs.openFile path flags =
      ((s.vfsOpen path flags).1, (s.vfsOpen path flags).2.abs) := by
  obtain ⟨htarget, habs⟩ := h.targetInode (fname path) flags
  rw [Store.openFile, habs]
  rcases hresult : s.targetInode (fname path) flags with ⟨status | i, t⟩
  · rw [hresult] at htarget
    rw [vfsOpen_of_targetInode_error h.ready hresult]
    exact ⟨htarget, rfl⟩
  · rw [hresult] at htarget
    simp only
    rw [freeDescriptor_abs]
    have huse := inUse_targetInode hresult
    rcases vfsOpen_of_targetInode h.ready hresult with ⟨hfree, heq⟩ | ⟨d, hfree, heq⟩
    · rw [heq, hfree]
      exact ⟨htarget, rfl⟩
    · obtain ⟨hopened, habsOpened⟩ := htarget.opened huse d flags
      rw [heq, hfree]
      simp only [Store.openOn]
      by_cases htrunc : flags &&& oTrunc = 0
      · simp only [htrunc, ne_eq, not_true_eq_false, if_false]
        exact ⟨hopened, Prod.ext rfl habsOpened.symm⟩
      · simp only [ne_eq, htrunc, not_false_eq_true, if_true]
        obtain ⟨hsound, habsTruncated⟩ :=
          hopened.truncate ((htarget.slot i).startSector_ne huse) d
        refine ⟨hsound, Prod.ext rfl ?_⟩
        simp only
        rw [habsTruncated, habsOpened]
        refine Store.ext rfl rfl ?_
        simp [Store.setDescriptor, Store.setFile]

/-- The end of a read or a write of some bytes in memory does not wrap around. -/
theorem wrap_cursor (h : Inv s) (hopen : (s.openFiles d).isOpen = true) {n : ℕ}
    (hn : n + 2 * sectorSize < w.size) : w.wrap (s.cursor d + n) = s.cursor d + n := by
  have hcursor : s.cursor d ≤ sectorSize := (h.desc d hopen).2
  exact SizeT.wrap_of_lt (by omega)

theorem Sound.vfsRead (h : Sound s) (fd : ℤ) {size : ℕ} (hsize : size + 2 * sectorSize < w.size) :
    Sound (s.vfsRead w fd size).2 ∧ s.abs.read fd size =
      ((s.vfsRead w fd size).1, (s.vfsRead w fd size).2.abs) := by
  cases hfd : fd? fd with
  | none =>
    rw [Vfs.vfsRead, Store.read, hfd]
    exact ⟨h, rfl⟩
  | some d =>
    obtain rfl := eq_of_fd? hfd
    by_cases hopen : (s.openFiles d).isOpen = true
    swap
    · have hclosed : s.vfsRead w (d : ℕ) size = (.error .invalidState, s) := by
        rw [Vfs.vfsRead, fd?_eq]
        simp only
        rw [if_neg (by simp [h.ready]), if_pos (by simpa using hopen)]
      rw [hclosed, Store.read_of_closed (show ¬(s.abs.descriptors d).isOpen = true from hopen)]
      exact ⟨h, rfl⟩
    have hnowrap : NoWrap w s d size := fun _ => wrap_cursor h.toInv hopen hsize
    have hreadable := h.toInv.readable hopen
    obtain ⟨cursor, readBuf, heq, hcursor⟩ := hreadable.snd_vfsRead w size
    have hbytes := hreadable.fst_vfsRead hnowrap
    obtain ⟨hsound, hstored⟩ :=
      h.descriptors (h.toInv.vfsRead w (d : ℕ) size) (by rw [heq]) (by rw [heq])
    rw [Store.read_of_open (show (s.abs.descriptors d).isOpen = true from hopen)]
    refine ⟨hsound, Prod.ext hbytes.symm (Store.ext ?_ hstored.symm ?_)⟩
    · rw [heq]
      rfl
    · have hlen : (((s.content (s.file d)).drop (s.cursor d)).take size).length =
          min size ((s.inode (s.file d)).sizeBytes.toNat - s.cursor d) := by simp
      have hmoved := descriptor_update s d _ (congrArg openFiles heq)
      rw [hcursor hnowrap, ← hlen] at hmoved
      exact hmoved.symm

/-- What a write does: the data are in the sector of the file, which has grown to their end, and
    the descriptor is there. -/
theorem vfsWrite_effects {bytes : List UInt8} (h : Inv s) (ha : Accepts w s d bytes)
    (hfits : s.cursor d + bytes.length ≤ sectorSize) :
    ∃ size : UInt32, ∃ s', s.vfsWrite w (d : ℕ) bytes = (.ok bytes.length, s') ∧
      size.toNat = max (s.content (s.file d)).length (s.cursor d + bytes.length) ∧
      s'.superblock.inodes = Function.update s.superblock.inodes (s.file d)
        { s.inode (s.file d) with sizeBytes := size } ∧
      (∀ n, n ≠ 0 → s'.block.flash n = Function.update s.block.flash
        (s.inode (s.file d)).startSector.toNat (written (s.writeData w d bytes)) n) ∧
      s'.openFiles = Function.update s.openFiles d (s.advanced d bytes.length) ∧
      s'.block.medium = s.block.medium := by
  have hend : ((s.rewritten w d bytes).advanced d bytes.length).cursor.toNat =
      s.cursor d + bytes.length := by
    refine (toNat_cursor ha.fits).trans (wrap_eq ?_)
    simp only [sectorSize, cursor] at hfits
    omega
  have hflash (n : ℕ) : (s.rewritten w d bytes).block.flash n = Function.update s.block.flash
      (s.inode (s.file d)).startSector.toNat (written (s.writeData w d bytes)) n := by
    simp only [rewritten, VfsBlock.performAll, run_rewrite]
    rfl
  rw [length_content, ha.vfsWrite h]
  -- The superblock is written too, when the file grows.
  by_cases hlt : (s.inode (s.file d)).sizeBytes <
      ((s.rewritten w d bytes).advanced d bytes.length).cursor
  · obtain ⟨sb, -, hsb, heq⟩ := advance_of_lt (h.rewritten w ha.isOpen bytes).up hlt
    rw [heq]
    rw [UInt32.lt_iff_toNat_lt, hend] at hlt
    refine ⟨_, _, rfl, ?_, hsb, fun n hn => ?_, rfl, rfl⟩
    · rw [hend, Nat.max_eq_right hlt.le]
    · rw [flash_commit _ sb hn]
      exact hflash n
  · have hle := UInt32.not_lt.1 hlt
    rw [advance_of_le hle]
    rw [UInt32.le_iff_toNat_le, hend] at hle
    exact ⟨_, _, rfl, (Nat.max_eq_left hle).symm, (Function.update_eq_self ..).symm,
      fun n _ => hflash n, rfl, rfl⟩

/-- The data of a write are the new contents, up to erased bytes. -/
theorem written_writeData (h : Sound s) (hopen : (s.openFiles d).isOpen = true)
    (bytes : List UInt8) (hfits : s.cursor d + bytes.length ≤ sectorSize) :
    written (s.writeData w d bytes) =
      written (overwrite (s.content (s.file d)) (s.cursor d) bytes) := by
  have hpage := h.paged (s.file d) (h.desc d hopen).1
  rw [overwrite, written_rightpad, writeData_eq hfits, hpage, slice_written_take]

/-- A write to a descriptor that is not open, or for reading only, is refused. -/
theorem Sound.vfsWrite_of_not_writable (h : Sound s) (hwritable : ¬s.abs.Writable d)
    (bytes : List UInt8) : s.vfsWrite w (d : ℕ) bytes = (.error .invalidState, s) := by
  have hno : (!(s.openFiles d).isOpen) = true ∨ (s.openFiles d).flags &&& oRdonly ≠ 0 := by
    rcases not_and_or.1 hwritable with hclosed | hflags
    · have hclosed : ¬(s.openFiles d).isOpen = true := hclosed
      exact .inl (by simpa using hclosed)
    · exact .inr hflags
  rw [Vfs.vfsWrite, fd?_eq]
  simp only
  rw [if_neg (by simp [h.ready]), if_pos hno]

/-- So is one beyond the end of the sector. -/
theorem Sound.vfsWrite_of_beyond (h : Sound s) (hwritable : s.abs.Writable d) {bytes : List UInt8}
    (hbeyond : sectorSize < w.wrap ((s.openFiles d).cursor.toNat + bytes.length)) :
    s.vfsWrite w (d : ℕ) bytes = (.error .noMemory, s) := by
  have hopen : (s.openFiles d).isOpen = true := hwritable.1
  have hflags : (s.openFiles d).flags &&& oRdonly = 0 := hwritable.2
  rw [Vfs.vfsWrite, fd?_eq]
  simp only
  rw [if_neg (by simp [h.ready]), if_neg (by simp [hopen, hflags]), if_pos hbeyond]

theorem Sound.vfsWrite (h : Sound s) (fd : ℤ) {bytes : List UInt8}
    (hbytes : bytes.length + 2 * sectorSize < w.size) :
    Sound (s.vfsWrite w fd bytes).2 ∧ s.abs.write fd bytes =
      ((s.vfsWrite w fd bytes).1, (s.vfsWrite w fd bytes).2.abs) := by
  cases hfd : fd? fd with
  | none =>
    rw [Vfs.vfsWrite, Store.write, hfd]
    exact ⟨h, rfl⟩
  | some d =>
    obtain rfl := eq_of_fd? hfd
    by_cases hwritable : s.abs.Writable d
    swap
    · rw [h.vfsWrite_of_not_writable hwritable, Store.write_of_not_writable hwritable]
      exact ⟨h, rfl⟩
    have hopen : (s.openFiles d).isOpen = true := hwritable.1
    have hflags : (s.openFiles d).flags &&& oRdonly = 0 := hwritable.2
    have hwrap : w.wrap ((s.openFiles d).cursor.toNat + bytes.length) =
        s.cursor d + bytes.length := wrap_cursor h.toInv hopen hbytes
    rw [Store.write_of_writable hwritable]
    change _ ∧ (if sectorSize < s.cursor d + bytes.length then _ else _) = _
    by_cases hfits : s.cursor d + bytes.length ≤ sectorSize
    swap
    · have hbeyond := Nat.lt_of_not_le hfits
      rw [h.vfsWrite_of_beyond hwritable (by rwa [hwrap]), if_pos hbeyond]
      exact ⟨h, rfl⟩
    rw [if_neg (Nat.not_lt.2 hfits)]
    have ha : Accepts w s d bytes := ⟨hopen, hflags, by rwa [hwrap]⟩
    obtain ⟨size, s', heq, hsize, hinodes, hflash, hfiles, hmedium⟩ :=
      vfsWrite_effects h.toInv ha hfits
    have hinv := h.toInv.vfsWrite w (d : ℕ) bytes
    rw [heq] at hinv ⊢
    have hlen := length_overwrite (s.content (s.file d)) (s.cursor d) bytes
    have hslot : SlotOk (s.file d) { s.inode (s.file d) with sizeBytes := size } := by
      refine (h.slot _).setSize ?_
      rw [hsize, length_content]
      exact max_le (h.slot _).sizeBytes hfits
    simp only [written_writeData h hopen bytes hfits] at hflash
    obtain ⟨hsound, hstored⟩ := h.change hinv { s.inode (s.file d) with sizeBytes := size }
      hinodes (h.desc d hopen).1 hslot (h.terminated _) (hlen.trans hsize.symm) hflash
    have hmoved := descriptor_update s d _ hfiles
    rw [advanced, toNat_cursor ha.fits, hwrap] at hmoved
    refine ⟨hsound, Prod.ext rfl (Store.ext ?_ ?_ ?_)⟩
    · exact congrArg Medium.persistent hmedium.symm
    · exact hstored.symm
    · exact hmoved.symm

theorem Sound.vfsClose (h : Sound s) (fd : ℤ) :
    Sound (s.vfsClose fd).2 ∧ s.abs.close fd = ((s.vfsClose fd).1, (s.vfsClose fd).2.abs) := by
  have hinv := h.toInv.vfsClose fd
  rw [Vfs.vfsClose] at hinv ⊢
  rw [Store.close]
  cases hfd : fd? fd with
  | none => exact ⟨h, rfl⟩
  | some d =>
    rw [hfd] at hinv
    simp only at hinv ⊢
    change _ ∧ (if (!(s.openFiles d).isOpen) = true then _ else _) = _
    split_ifs at hinv ⊢ with hclosed
    · exact ⟨h, rfl⟩
    · obtain ⟨hsound, hstored⟩ := h.descriptors hinv rfl rfl
      refine ⟨hsound, Prod.ext rfl (Store.ext rfl hstored.symm ?_)⟩
      exact (descriptor_update s d { s.openFiles d with isOpen := false } rfl).symm

theorem Sound.vfsDelete (h : Sound s) (path : List UInt8) :
    Sound (s.vfsDelete path).2 ∧
      s.abs.delete path = ((s.vfsDelete path).1, (s.vfsDelete path).2.abs) := by
  have hinv := h.toInv.vfsDelete path
  rw [Vfs.vfsDelete, if_neg (by simp [h.ready])] at hinv ⊢
  rw [Store.delete, find_abs]
  cases hfind : s.findInode (fname path) with
  | none => exact ⟨h, rfl⟩
  | some i =>
    rw [hfind] at hinv
    obtain ⟨hsound, habs⟩ := h.remove (findInode_inUse hfind) hinv
    exact ⟨hsound, Prod.ext rfl habs.symm⟩

theorem vfsStat_abs (h : Sound s) (path : List UInt8) : s.vfsStat path = s.abs.stat path := by
  rw [vfsStat, if_neg (by simp [h.ready]), Store.stat, find_abs]
  cases s.findInode (fname path) with
  | none => rfl
  | some i =>
    simp only
    rw [← length_content]
    rfl

/-! ## Mounting -/

theorem fst_vfsInit (hf : s.block.faults = []) : s.vfsInit.1 = .ok := by
  obtain ⟨b, hinit, -⟩ := VfsBlock.vfsBlockInit_eq hf
  rw [Vfs.vfsInit]
  simp only [hinit]
  rw [if_neg (by simp)]

theorem medium_vfsInit (hf : s.block.faults = []) :
    s.vfsInit.2.block.medium = s.block.medium := by
  obtain ⟨b, -, hup, hmedium, -, -, heq⟩ := vfsInit_eq hf
  rw [heq]
  simp only
  split_ifs with hmagic
  · obtain ⟨sb, -, -, hcode⟩ := createDefaultFiles_eq (s := { s with
      openFiles := fun _ => ⟨0, 0, 0, false⟩
      superblock := { VfsSuperblock.zero with magic := blockMagic }
      block := b }) hup rfl
    rw [hcode]
    exact hmedium
  · exact hmedium

/-- A default file: its contents are in its sector, or it has none. -/
theorem defaultFiles_eq (i : Fin 16) :
    Store.defaultFiles i = ⟨cString (defaultInodes i).name.toList,
        (Store.defaultFiles i).contents, (defaultInodes i).flags,
        decide ((defaultInodes i).inUse ≠ 0)⟩ ∧
      (Store.defaultFiles i).contents.length = (defaultInodes i).sizeBytes.toNat ∧
      (defaultInodes i).name[(31 : Fin 32)] = 0 ∧
      ((defaultInodes i).startSector = 0 ∨
        (defaultInodes i).startSector = 1 ∧ (Store.defaultFiles i).contents = defaultMacro ∨
        (defaultInodes i).startSector = 2 ∧ (Store.defaultFiles i).contents = []) := by
  by_cases h0 : i = 0
  · subst h0
    exact ⟨by decide +kernel, by decide +kernel, by decide +kernel, .inr (.inl ⟨rfl, rfl⟩)⟩
  by_cases h1 : i = 1
  · subst h1
    exact ⟨by decide +kernel, by decide +kernel, by decide +kernel, .inr (.inr ⟨rfl, rfl⟩)⟩
  have hinode : defaultInodes i = .zero := by
    rw [defaultInodes, Function.update_of_ne h1, Function.update_of_ne h0]
  have hfile : Store.defaultFiles i = ⟨[], [], 0, false⟩ := by
    rw [Store.defaultFiles, if_neg h0, if_neg h1]
  rw [hinode, hfile]
  exact ⟨by decide +kernel, rfl, by decide +kernel, .inl rfl⟩

/-- The inodes of formatting that have no sector have no contents. -/
theorem sizeBytes_defaultInodes (hstart : (defaultInodes i).startSector = 0) :
    (defaultInodes i).sizeBytes = 0 := by
  revert hstart
  by_cases h0 : i = 0
  · subst h0
    decide +kernel
  by_cases h1 : i = 1
  · subst h1
    decide +kernel
  rw [defaultInodes, Function.update_of_ne h1, Function.update_of_ne h0]
  exact fun _ => rfl

/-- A flash without a superblock is formatted, with the default files. -/
theorem sound_vfsInit_of_blank (hf : s.block.faults = []) (hm : s.block.medium.persistent = true →
      (VfsSuperblock.ofMemory (s.block.flash 0)).magic ≠ blockMagic) :
    Sound s.vfsInit.2 ∧ s.vfsInit.2.abs = .formatted s.block.medium.persistent := by
  have hmedium := medium_vfsInit hf
  have hinv := inv_vfsInit_of_blank hf hm
  obtain ⟨b, sb, hup, hmagic, hinodes, heq⟩ := vfsInit_formatted hf hm
  have hinode (i : Fin 16) : s.vfsInit.2.inode i = defaultInodes i := by
    rw [heq, inode]
    exact congrFun hinodes i
  have hpage1 : s.vfsInit.2.block.flash 1 = written defaultMacro := by
    rw [heq]
    simp only [commit, VfsBlock.performAll, formatSteps, run_append, run_rewrite, run_cons, run_nil,
      Step.apply]
    rfl
  have hpage2 : s.vfsInit.2.block.flash 2 = written [] := by
    rw [heq]
    simp only [commit, VfsBlock.performAll, formatSteps, run_append, run_rewrite, run_cons, run_nil,
      Step.apply]
    rfl
  have hpaged (i : Fin 16) (hstart : (defaultInodes i).startSector ≠ 0) :
      s.vfsInit.2.block.flash (defaultInodes i).startSector.toNat =
        written (Store.defaultFiles i).contents := by
    obtain ⟨-, -, -, hzero | ⟨hone, hbs⟩ | ⟨htwo, hbs⟩⟩ := defaultFiles_eq i
    · exact absurd hzero hstart
    · rw [hone, hbs]
      exact hpage1
    · rw [htwo, hbs]
      exact hpage2
  have hcontent (i : Fin 16) : s.vfsInit.2.content i = (Store.defaultFiles i).contents := by
    obtain ⟨-, hlen, -⟩ := defaultFiles_eq i
    by_cases hstart : (defaultInodes i).startSector = 0
    · have hsize := sizeBytes_defaultInodes hstart
      rw [content_of_empty (by rw [hinode, hsize])]
      rw [hsize] at hlen
      exact (List.eq_nil_of_length_eq_zero hlen).symm
    · exact content_of_written (by rw [hinode, hpaged i hstart]) (by rw [hinode, hlen])
  refine ⟨⟨hinv, fun i => ?_, fun i hstart => ?_, fun i hstart => ?_⟩, Store.ext ?_ ?_ ?_⟩
  · rw [hinode]
    exact (defaultFiles_eq i).2.2.1
  · rw [hinode] at hstart ⊢
    rw [hpaged i hstart, hcontent]
  · rw [hinode] at hstart ⊢
    exact sizeBytes_defaultInodes hstart
  · exact congrArg Medium.persistent hmedium
  · funext i
    simp only [abs, stored, nameOf, hinode, hcontent]
    exact (defaultFiles_eq i).1.symm
  · rw [heq]
    rfl

theorem Sound.vfsInit (h : Sound s) : Sound s.vfsInit.2 ∧ s.abs.mounted = s.vfsInit.2.abs := by
  rw [Store.mounted]
  have hmedium := medium_vfsInit h.up.faults
  by_cases hp : s.block.medium.persistent = true
  · have hread := VfsSuperblock.ofMemory_eq h.synced
    obtain ⟨b, hup, hflash, -, heq⟩ := vfsInit_mounted h.up.faults hp (hread ▸ h.magic)
    obtain ⟨hsound, hstored⟩ := h.descriptors h.toInv.vfsInit
      (by rw [heq]; exact hread) (by rw [heq]; exact hflash)
    refine ⟨hsound, ?_⟩
    rw [if_pos (show s.abs.persistent = true from hp)]
    refine Store.ext (congrArg Medium.persistent hmedium.symm) hstored.symm ?_
    rw [heq]
    rfl
  · obtain ⟨hsound, habs⟩ := sound_vfsInit_of_blank h.up.faults fun hp' => absurd hp' hp
    refine ⟨hsound, ?_⟩
    rw [if_neg (show ¬s.abs.persistent = true from hp), habs, Bool.eq_false_iff.2 hp]

/-! ## Runs -/

/-- What a call returns. -/
def reply (w : SizeT) (s : Vfs) : Call → Reply
  | .vfsInit => .status s.vfsInit.1
  | .vfsOpen path flags => .opened (s.vfsOpen path flags).1
  | .vfsRead fd size => .bytes (s.vfsRead w fd size).1
  | .vfsWrite fd buffer => .count (s.vfsWrite w fd buffer).1
  | .vfsClose fd => .status (s.vfsClose fd).1
  | .vfsDelete path => .status (s.vfsDelete path).1

/-- The buffer of a call is in memory, where the static buffers of `vfs_read` and `vfs_write` are
    too. -/
def Call.InMemory (w : SizeT) : Call → Prop
  | .vfsRead _ size => size + 2 * sectorSize < w.size
  | .vfsWrite _ buffer => buffer.length + 2 * sectorSize < w.size
  | _ => True

instance (w : SizeT) : (c : Call) → Decidable (c.InMemory w)
  | .vfsRead _ size => inferInstanceAs (Decidable (size + 2 * sectorSize < w.size))
  | .vfsWrite _ buffer => inferInstanceAs (Decidable (buffer.length + 2 * sectorSize < w.size))
  | .vfsInit | .vfsOpen .. | .vfsClose .. | .vfsDelete .. => isTrue trivial

/-- A call does to the table what it is meant to do. -/
theorem Sound.exec (h : Sound s) {c : Call} (hc : c.InMemory w) :
    Sound (s.exec w c) ∧ s.abs.exec c = (s.reply w c, (s.exec w c).abs) := by
  cases c with
  | vfsInit =>
    obtain ⟨hsound, habs⟩ := h.vfsInit
    refine ⟨hsound, Prod.ext ?_ habs⟩
    rw [reply, fst_vfsInit h.up.faults]
    rfl
  | vfsOpen path flags =>
    obtain ⟨hsound, habs⟩ := h.vfsOpen path flags
    rw [Store.exec, habs]
    exact ⟨hsound, rfl⟩
  | vfsRead fd size =>
    obtain ⟨hsound, habs⟩ := h.vfsRead fd hc
    rw [Store.exec, habs]
    exact ⟨hsound, rfl⟩
  | vfsWrite fd buffer =>
    obtain ⟨hsound, habs⟩ := h.vfsWrite fd hc
    rw [Store.exec, habs]
    exact ⟨hsound, rfl⟩
  | vfsClose fd =>
    obtain ⟨hsound, habs⟩ := h.vfsClose fd
    rw [Store.exec, habs]
    exact ⟨hsound, rfl⟩
  | vfsDelete path =>
    obtain ⟨hsound, habs⟩ := h.vfsDelete path
    rw [Store.exec, habs]
    exact ⟨hsound, rfl⟩

/-- What some calls return, one after the other. -/
def replies (w : SizeT) : Vfs → List Call → List Reply := collect (exec w) fun s c => [s.reply w c]

/-- The calls return what they do on the table, and leave the table that they do. -/
theorem Sound.run (h : Sound s) {calls : List Call} (hcalls : ∀ c ∈ calls, c.InMemory w) :
    Sound (calls.foldl (Vfs.exec w) s) ∧ replies w s calls = s.abs.replies calls ∧
      (calls.foldl (Vfs.exec w) s).abs = s.abs.run calls := by
  induction calls generalizing s with
  | nil => exact ⟨h, rfl, rfl⟩
  | cons c calls ih =>
    obtain ⟨hc, hcalls⟩ := List.forall_mem_cons.1 hcalls
    obtain ⟨hsound, habs⟩ := h.exec hc
    obtain ⟨hlast, hreplies, hrun⟩ := ih hsound hcalls
    refine ⟨hlast, ?_, ?_⟩
    · rw [replies, collect, Store.replies, collect, habs]
      exact congrArg _ hreplies
    · rw [List.foldl_cons, hrun, Store.run, Store.run, List.foldl_cons, habs]

/-- From the formatting of a flash on, any calls return what they return on the table of files,
    and the files and their statuses are those of the table. -/
theorem refines (w : SizeT) (medium : Medium) {flash : Image}
    (hblank : (VfsSuperblock.ofMemory (flash 0)).magic ≠ blockMagic) (calls : List Call)
    (hcalls : ∀ c ∈ calls, c.InMemory w) :
    let s := calls.foldl (Vfs.exec w) (mount medium flash)
    let t := (Store.formatted medium.persistent).run calls
    replies w (mount medium flash) calls = (Store.formatted medium.persistent).replies calls ∧
      s.abs = t ∧ ∀ path, s.vfsStat path = t.stat path := by
  obtain ⟨hsound, habs⟩ := sound_vfsInit_of_blank (s := powerOn medium flash []) rfl fun _ => hblank
  obtain ⟨hlast, hreplies, hrun⟩ := hsound.run hcalls
  rw [habs] at hreplies hrun
  exact ⟨hreplies, hrun, fun path => hrun ▸ vfsStat_abs hlast path⟩

/-- A file is written, and read after the power was off. -/
def notes : List Call :=
  [.vfsOpen (ascii "notes") (oCreat ||| oWronly), .vfsWrite 0 (ascii "Hi"), .vfsClose 0, .vfsInit,
    .vfsOpen (ascii "/notes") oRdonly, .vfsRead 0 64]

/-- These calls, on a flash that is erased. -/
theorem refines_notes :
    let s := notes.foldl (Vfs.exec .bits32) (mount .osfs fun _ => blank)
    let t := (Store.formatted true).run notes
    replies .bits32 (mount .osfs fun _ => blank) notes = (Store.formatted true).replies notes ∧
      s.abs = t ∧ ∀ path, s.vfsStat path = t.stat path := by
  exact refines .bits32 .osfs (by decide +kernel) notes (by decide +kernel)

example : ((Store.formatted true).replies notes).getLast? = some (.bytes (.ok (ascii "Hi"))) := by
  decide +kernel

end Vfs

end SliverOS
