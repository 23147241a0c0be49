import SliverOS.Vfs.Strings
import SliverOS.Vfs.Isolation

/-!
# The audit log

`vfs_log_append` of `os/vfs/vfs_log.c`: an entry is written through a descriptor
opened at the end of the log, and closed.

The log is a file that no descriptor is open on between the appends. Calls on other
names leave it as it is (`LogAt.exec`), and an append adds the entry as a whole, or
refuses it when the sector is full (`LogAt.append`). Over a run, the log is thus the
entries appended, one after the other (`LogRun.content_eq`).
-/

namespace SliverOS

open Bytes Flash

/-! ## Entries -/

/-- The number of values of `size_t`. -/
def SizeT.size : SizeT → ℕ
  | bits32 => 2 ^ 32
  | bits64 => 2 ^ 64

theorem SizeT.wrap_of_lt {w : SizeT} {n : ℕ} (h : n < w.size) : w.wrap n = n := by
  cases w with
  | bits32 => exact Nat.mod_eq_of_lt h
  | bits64 => exact Nat.mod_eq_of_lt h

/-- A string in memory, where the static buffers of `vfs_read` and `vfs_write` are too. -/
structure LogEntry (w : SizeT) where
  bytes : List UInt8
  not_mem : 0 ∉ bytes
  fits : bytes.length + 2 * sectorSize < w.size

theorem LogEntry.cString_bytes {w : SizeT} (e : LogEntry w) : cString e.bytes = e.bytes :=
  List.takeWhile_eq_self_iff.2 fun _ hb => decide_eq_true fun hzero => e.not_mem (hzero ▸ hb)

namespace Vfs

variable {w : SizeT} {s s' s'' : Vfs} {i j k : Fin 16} {d : Fin 8} {ino : VfsInode}
  {name path : List UInt8}

/-! ## What a call spares -/

/-- A slot in use has a name. -/
def Matches (s : Vfs) (name : List UInt8) (j : Fin 16) : Prop :=
  (s.inode j).inUse ≠ 0 ∧ strncmpEq (s.inode j).name.toList name maxFilenameLen = true

theorem findInode_matches (h : s.findInode name = some i) : s.Matches name i := by
  have hi := List.find?_some h
  simpa [Matches] using hi

/-- A file is still found when no other one has got its name. -/
theorem findInode_of_matches (h : s.findInode name = some i) (hi : s'.Matches name i)
    (hle : ∀ j, s'.Matches name j → s.Matches name j) : s'.findInode name = some i := by
  rw [findInode, List.find?_eq_some_iff_append] at h ⊢
  obtain ⟨_, before, after, hlist, hbefore⟩ := h
  refine ⟨by simpa [Matches] using hi, before, after, hlist, fun j hj => ?_⟩
  have hnot := hbefore j hj
  simp only [Bool.not_eq_true', decide_eq_false_iff_not] at hnot ⊢
  exact fun hmatch => hnot (hle j hmatch)

/-- The file of a slot is as it was, and no other slot has got its name. -/
structure Spares (name : List UInt8) (i : Fin 16) (s s' : Vfs) : Prop where
  inode : s'.inode i = s.inode i
  sector : s'.block.flash (s.inode i).startSector.toNat =
    s.block.flash (s.inode i).startSector.toNat
  names : ∀ j, s'.Matches name j → s.Matches name j

theorem Spares.refl (name : List UInt8) (i : Fin 16) (s : Vfs) : Spares name i s s :=
  ⟨rfl, rfl, fun _ => id⟩

theorem Spares.trans (h : Spares name i s s') (h' : Spares name i s' s'') :
    Spares name i s s'' where
  inode := h'.inode.trans h.inode
  sector := by
    have hsector := h'.sector
    rw [h.inode] at hsector
    exact hsector.trans h.sector
  names j hj := h.names j (h'.names j hj)

theorem Spares.content (h : Spares name i s s') : s'.content i = s.content i := by
  rw [Vfs.content, h.inode, h.sector, Vfs.content]

theorem Spares.findInode (h : Spares name i s s') (hfind : s.findInode name = some i) :
    s'.findInode name = some i := by
  refine findInode_of_matches hfind ?_ h.names
  rw [Matches, h.inode]
  exact findInode_matches hfind

/-- A change of the inode and of the sector of another slot, and of the descriptors. -/
theorem spares_commit (h : Inv s) (huse : (s.inode i).inUse ≠ 0) (hk : k ≠ i)
    {sb : VfsSuperblock} {steps : List Step} {files : Fin 8 → VfsFileDesc}
    (hsb : sb.inodes = Function.update s.superblock.inodes k ino) (hok : SlotOk k ino)
    (hsteps : ∀ st ∈ steps, st.sector = ino.startSector.toNat)
    (hname : ino.inUse ≠ 0 → strncmpEq ino.name.toList name maxFilenameLen = true →
      s.Matches name k) :
    Spares name i s (Vfs.commit { s with openFiles := files } sb steps) := by
  have hstart := (h.slot i).startSector_ne huse
  have hinode (j : Fin 16) : (Vfs.commit { s with openFiles := files } sb steps).inode j =
      Function.update s.superblock.inodes k ino j := congrFun hsb j
  have hother {j : Fin 16} (hj : j ≠ k) :
      (Vfs.commit { s with openFiles := files } sb steps).inode j = s.inode j :=
    (hinode j).trans (Function.update_of_ne hj ..)
  refine ⟨hother (Ne.symm hk), ?_, fun j hj => ?_⟩
  · -- The steps are on the sectors of another slot and of the superblock.
    have hne := (h.slot i).sector_ne hok (Ne.symm hk) hstart
    simp only [commit, VfsBlock.performAll, run_append, run_rewrite]
    rw [Function.update_of_ne (startSector_ne_zero_iff.1 hstart)]
    exact run_of_ne fun st hst => (hsteps st hst).trans_ne (Ne.symm hne)
  · -- Only the slot written can have got a name.
    by_cases hjk : j = k
    · subst hjk
      rw [Matches, hinode, Function.update_self] at hj
      exact hname hj.1 hj.2
    · rwa [Matches, hother hjk] at hj

/-- The descriptors changed. -/
theorem spares_setOpenFiles (name : List UInt8) (i : Fin 16) (s : Vfs)
    (files : Fin 8 → VfsFileDesc) : Spares name i s { s with openFiles := files } :=
  ⟨rfl, rfl, fun _ => id⟩

/-- The creation of a file with another name. -/
theorem spares_create (h : Inv s) (huse : (s.inode i).inUse ≠ 0) (hfree : (s.inode k).inUse = 0)
    (hname : (cString name).length ≤ 30) (hne : cString path ≠ cString name) (flags : UInt32) :
    Spares name i s (s.create k path flags) := by
  obtain ⟨sb, -, hsb, heq⟩ := create_eq h.up k path flags
  have hk : k ≠ i := by
    rintro rfl
    exact huse hfree
  rw [heq]
  refine spares_commit h huse hk hsb (slotOk_newInode s k path flags) ?_ fun _ hmatch => ?_
  · simp [Step.sector, newInode_startSector]
  · exact absurd (cString_eq_of_strncpy hname hmatch) hne

/-- The truncation of another file. -/
theorem spares_truncate (h : Inv s) (huse : (s.inode i).inUse ≠ 0) (hk : k ≠ i) (d : Fin 8) :
    Spares name i s (s.truncate k d) := by
  obtain ⟨sb, -, hsb, heq⟩ := truncate_eq h k d
  rw [heq]
  refine spares_commit h huse hk hsb ((h.slot k).setSize (Nat.zero_le _)) ?_
    fun hused hmatch => ⟨hused, hmatch⟩
  simp [Step.sector]

/-- The deletion of another file. -/
theorem spares_remove (h : Inv s) (huse : (s.inode i).inUse ≠ 0) (hk : k ≠ i) :
    Spares name i s (s.remove k) := by
  obtain ⟨sb, -, hsb, heq⟩ := remove_eq h k
  have hok := h.slot k
  have hplace := hok.place.imp_left fun hz => (⟨hz.1, rfl⟩ : _ ∧ (0 : UInt32) = 0)
  rw [heq]
  refine spares_commit h huse hk hsb ⟨hplace, hok.sizeBytes, .inl rfl⟩ ?_
    fun hremoved => absurd rfl hremoved
  simp [Step.sector]

/-- The end of a write to another file. -/
theorem spares_advance (h : Inv s) (huse : (s.inode i).inUse ≠ 0) (hk : s.file d ≠ i) {size : ℕ}
    (hcursor : (s.advanced d size).cursor.toNat ≤ sectorSize) :
    Spares name i s (s.advance d size) := by
  by_cases hlt : (s.inode (s.openFiles d).inodeIdx).sizeBytes < (s.advanced d size).cursor
  · obtain ⟨sb, -, hsb, heq⟩ := advance_of_lt h.up hlt
    rw [heq]
    refine spares_commit h huse hk hsb ((h.slot _).setSize hcursor) ?_
      fun hused hmatch => ⟨hused, hmatch⟩
    simp
  · rw [advance_of_le (UInt32.not_lt.1 hlt)]
    exact spares_setOpenFiles name i s _

/-- A write through a descriptor of another file. -/
theorem spares_vfsWrite (h : Inv s) (huse : (s.inode i).inUse ≠ 0)
    (hopen : ∀ d, (s.openFiles d).isOpen = true → s.file d ≠ i) (w : SizeT) (fd : ℤ)
    (buffer : List UInt8) : Spares name i s (s.vfsWrite w fd buffer).2 := by
  refine vfsWrite_rule (.refl name i s) h w fd buffer fun d ha => ?_
  have hk := hopen d ha.isOpen
  have hne := (h.slot _).sector_ne (h.slot i) hk (h.desc d ha.isOpen).1
  have hrewritten : Spares name i s (s.rewritten w d buffer) := by
    refine ⟨rfl, ?_, fun _ => id⟩
    simp only [rewritten, VfsBlock.performAll, run_rewrite]
    exact Function.update_of_ne (Ne.symm hne) ..
  exact hrewritten.trans (spares_advance (h.rewritten w ha.isOpen buffer) huse hk
    ((toNat_cursor ha.fits).trans_le ha.fits))

/-! ## The log among other files -/

/-- The file of a name is in a slot, with these bytes, and no descriptor is open on it. -/
structure LogAt (s : Vfs) (name : List UInt8) (i : Fin 16) (bytes : List UInt8) : Prop where
  inv : Inv s
  short : (cString name).length ≤ 30
  found : s.findInode name = some i
  closed : ∀ d, (s.openFiles d).isOpen = true → s.file d ≠ i
  content : s.content i = bytes

/-- A call that opens no file of a name and deletes none. -/
def OnOthers (name : List UInt8) : Call → Prop
  | .vfsInit => False
  | .vfsOpen path _ | .vfsDelete path => cString (fname path) ≠ cString name
  | .vfsRead _ _ | .vfsWrite _ _ | .vfsClose _ => True

variable {bytes : List UInt8}

theorem LogAt.inUse (h : LogAt s name i bytes) : (s.inode i).inUse ≠ 0 := findInode_inUse h.found

/-- The slot of a file with another name is another one. -/
theorem LogAt.slot_ne (h : LogAt s name i bytes) (hne : cString path ≠ cString name)
    (hfind : s.findInode path = some k) : k ≠ i := by
  rintro rfl
  exact hne (cString_eq_of_strncmpEq h.short (findInode_matches h.found).2
    (findInode_matches hfind).2)

/-- The log is as it was after a call that spares it. -/
theorem LogAt.of_spares (h : LogAt s name i bytes) (hs : Spares name i s s') (hinv : Inv s')
    (hclosed : ∀ d, (s'.openFiles d).isOpen = true → s'.file d ≠ i) : LogAt s' name i bytes where
  inv := hinv
  short := h.short
  found := hs.findInode h.found
  closed := hclosed
  content := hs.content.trans h.content

/-- The file of another name is found or created elsewhere. -/
theorem LogAt.targetInode (h : LogAt s name i bytes) (hne : cString path ≠ cString name)
    (flags : UInt32) : LogAt (s.targetInode path flags).2 name i bytes ∧
      ∀ k, (s.targetInode path flags).1 = .ok k → k ≠ i := by
  rcases s.targetInode_cases path flags with
    ⟨status, heq⟩ | ⟨k, hfind, heq⟩ | ⟨k, -, hfree, -, heq⟩
  · rw [heq]
    exact ⟨h, fun k hk => by cases hk⟩
  · rw [heq]
    refine ⟨h, fun k' hk' => ?_⟩
    cases hk'
    exact h.slot_ne hne hfind
  · rw [heq]
    -- A slot that is free is not that of the log.
    refine ⟨?_, fun k' hk' => ?_⟩
    · exact h.of_spares (spares_create h.inv h.inUse (freeInode_inUse hfree) h.short hne flags)
        (h.inv.create k path flags) h.closed
    · cases hk'
      rintro rfl
      exact h.inUse (freeInode_inUse hfree)

/-- A descriptor on another file is opened. -/
theorem LogAt.setDesc (h : LogAt s name i bytes) (d : Fin 8) (desc : VfsFileDesc)
    (hdesc : desc.isOpen = true → desc.inodeIdx ≠ i) :
    ∀ e, (Function.update s.openFiles d desc e).isOpen = true →
      (Function.update s.openFiles d desc e).inodeIdx ≠ i :=
  desc_update (p := fun desc => desc.inodeIdx ≠ i) h.closed hdesc

theorem LogAt.truncate (h : LogAt s name i bytes) (hd : s.file d ≠ i)
    (hstart : (s.inode (s.file d)).startSector ≠ 0) :
    LogAt (s.truncate (s.file d) d) name i bytes :=
  h.of_spares (spares_truncate h.inv h.inUse hd d) (h.inv.truncate hstart d)
    (h.setDesc d { s.openFiles d with cursor := 0 } fun _ => hd)

/-- Opening a file of another name. -/
theorem LogAt.vfsOpen (h : LogAt s name i bytes) (hne : cString (fname path) ≠ cString name)
    (flags : UInt32) : LogAt (s.vfsOpen path flags).2 name i bytes := by
  obtain ⟨ht, hslot⟩ := h.targetInode hne flags
  rcases vfsOpen_outcome h.inv.ready path flags with ⟨status, heq⟩ | ⟨k, t, d, htarget, -, heq⟩
  · rwa [heq]
  · rw [htarget] at ht hslot
    have hk := hslot k rfl
    have huse := inUse_targetInode htarget
    -- The descriptor is opened on another slot.
    have hopened : LogAt (t.opened k d flags) name i bytes :=
      ht.of_spares (spares_setOpenFiles name i t _) (ht.inv.opened huse d flags)
        (ht.setDesc _ _ fun _ => hk)
    have hfile : (t.opened k d flags).file d = k := by
      simp only [file, opened, Function.update_self]
    rw [heq]
    simp only
    split
    · have htruncated := hopened.truncate (d := d) (by rwa [hfile])
        (by rw [hfile]; exact (ht.inv.slot k).startSector_ne huse)
      rwa [hfile] at htruncated
    · exact hopened

/-- A call on other files. -/
theorem LogAt.exec (h : LogAt s name i bytes) {c : Call} (hc : OnOthers name c) (w : SizeT) :
    LogAt (s.exec w c) name i bytes := by
  have hinv := h.inv.exec w c
  -- Only `vfs_open` can open a descriptor on the log.
  have hclosed (hopen : ∀ path flags, c ≠ .vfsOpen path flags) :
      ∀ d, ((s.exec w c).openFiles d).isOpen = true → (s.exec w c).file d ≠ i := by
    intro d hd
    obtain ⟨hbefore, hfile⟩ := keeps_exec h.inv hopen d hd
    rw [hfile]
    exact h.closed d hbefore
  cases c with
  | vfsInit => exact hc.elim
  | vfsOpen path flags => exact h.vfsOpen hc flags
  | vfsRead fd size =>
    refine h.of_spares ?_ hinv (hclosed fun _ _ heq => by cases heq)
    exact vfsRead_rule (.refl name i s) h.inv w fd size fun _ _ _ _ _ => ⟨rfl, rfl, fun _ => id⟩
  | vfsWrite fd buffer =>
    exact h.of_spares (spares_vfsWrite h.inv h.inUse h.closed w fd buffer) hinv
      (hclosed fun _ _ heq => by cases heq)
  | vfsClose fd =>
    refine h.of_spares ?_ hinv (hclosed fun _ _ heq => by cases heq)
    exact vfsClose_rule (.refl name i s) fd fun _ => spares_setOpenFiles name i s _
  | vfsDelete path =>
    refine h.of_spares ?_ hinv (hclosed fun _ _ heq => by cases heq)
    exact vfsDelete_rule (.refl name i s) path
      fun _ hfind => spares_remove h.inv h.inUse (h.slot_ne hc hfind)

/-! ## Appending -/

/-- `vfs_log_append`. -/
def vfsLogAppend (w : SizeT) (s : Vfs) (logFilename entry : List UInt8) : MkStatus × Vfs :=
  match s.vfsOpen logFilename (oCreat ||| oWronly ||| oAppend) with
  | (.error status, s) => (status, s)
  | (.ok fd, s) =>
    let (result, s) := s.vfsWrite w (fd : ℕ) (cString entry)
    let status := match result with
      | .ok _ => .ok
      | .error status => status
    (status, (s.vfsClose (fd : ℕ)).2)

/-- The descriptor of the log opened at its end. -/
def endDesc (s : Vfs) (i : Fin 16) : VfsFileDesc where
  inodeIdx := i
  cursor := (s.inode i).sizeBytes
  flags := oCreat ||| oWronly ||| oAppend
  isOpen := true

/-- The log opened at its end. -/
def openedAtEnd (s : Vfs) (i : Fin 16) (d : Fin 8) : Vfs :=
  { s with openFiles := Function.update s.openFiles d (s.endDesc i) }

theorem openFiles_openedAtEnd (s : Vfs) (i : Fin 16) (d : Fin 8) :
    (s.openedAtEnd i d).openFiles d = s.endDesc i :=
  Function.update_self ..

theorem LogAt.vfsOpen_append (h : LogAt s (fname path) i bytes) (hfree : s.freeFd = some d) :
    s.vfsOpen path (oCreat ||| oWronly ||| oAppend) = (.ok d, s.openedAtEnd i d) := by
  have hend : (oCreat ||| oWronly ||| oAppend) &&& oAppend ≠ 0 := by decide
  have hkeep : ¬(oCreat ||| oWronly ||| oAppend) &&& oTrunc ≠ 0 := by decide
  rcases vfsOpen_of_targetInode h.inv.ready (targetInode_of_found h.found _) with
    ⟨hnone, -⟩ | ⟨e, he, heq⟩
  · cases hfree.symm.trans hnone
  · cases hfree.symm.trans he
    rw [heq, if_neg hkeep, opened, if_pos hend]
    rfl

theorem LogAt.inv_openedAtEnd (h : LogAt s name i bytes) (d : Fin 8) : Inv (s.openedAtEnd i d) :=
  h.inv.setDesc (d := d) (e := s.endDesc i) fun _ =>
    ⟨(h.inv.slot i).startSector_ne h.inUse, (h.inv.slot i).sizeBytes⟩

/-- The end of a write changes the size of a file only. -/
theorem name_advance (h : s.block.Up) (d : Fin 8) (size : ℕ) (j : Fin 16) :
    ((s.advance d size).inode j).name = (s.inode j).name ∧
      ((s.advance d size).inode j).inUse = (s.inode j).inUse := by
  by_cases hlt : (s.inode (s.openFiles d).inodeIdx).sizeBytes < (s.advanced d size).cursor
  · obtain ⟨sb, -, hsb, heq⟩ := advance_of_lt h hlt
    have hinode : (s.advance d size).inode j = Function.update s.superblock.inodes
        (s.openFiles d).inodeIdx { s.inode (s.openFiles d).inodeIdx with
          sizeBytes := (s.advanced d size).cursor } j := by
      rw [heq]
      exact congrFun hsb j
    rw [hinode]
    by_cases hj : j = (s.openFiles d).inodeIdx
    · rw [hj, Function.update_self]
      exact ⟨rfl, rfl⟩
    · rw [Function.update_of_ne hj]
      exact ⟨rfl, rfl⟩
  · rw [advance_of_le (UInt32.not_lt.1 hlt)]
    exact ⟨rfl, rfl⟩

/-- The descriptor of the log is closed. -/
theorem vfsClose_eq (hopen : (s.openFiles d).isOpen = true) : s.vfsClose (d : ℕ) =
    (.ok, { s with openFiles :=
      Function.update s.openFiles d { s.openFiles d with isOpen := false } }) := by
  rw [vfsClose, fd?_eq]
  simp only
  rw [if_neg (by simp [hopen])]

/-- The log is as it was found, when its descriptor is the one that is closed. -/
theorem LogAt.of_closed (h : LogAt s name i bytes) {t : Vfs} {bytes' : List UInt8} (hinv : Inv t)
    (hopen : (t.openFiles d).isOpen = true) (hfiles : ∀ e ≠ d, t.openFiles e = s.openFiles e)
    (hnames : ∀ j, (t.inode j).name = (s.inode j).name ∧ (t.inode j).inUse = (s.inode j).inUse)
    (hcontent : t.content i = bytes') : LogAt (t.vfsClose (d : ℕ)).2 name i bytes' := by
  have hmatches (j : Fin 16) : t.Matches name j ↔ s.Matches name j := by
    rw [Matches, (hnames j).1, (hnames j).2, Matches]
  have hclosed := hinv.vfsClose (d : ℕ)
  rw [vfsClose_eq hopen] at hclosed ⊢
  refine ⟨hclosed, h.short, ?_, fun e he => ?_, hcontent⟩
  · have hfound : t.findInode name = some i :=
      findInode_of_matches h.found ((hmatches i).2 (findInode_matches h.found))
        fun j => (hmatches j).1
    exact hfound
  · simp only [file] at he ⊢
    by_cases hed : e = d
    · rw [hed, Function.update_self] at he
      cases he
    · rw [Function.update_of_ne hed, hfiles e hed] at he ⊢
      exact h.closed e he

theorem accepts_openedAtEnd {entry : List UInt8}
    (hfits : w.wrap ((s.inode i).sizeBytes.toNat + entry.length) ≤ sectorSize) :
    Accepts w (s.openedAtEnd i d) d entry := by
  have hflags : (oCreat ||| oWronly ||| oAppend) &&& oRdonly = 0 := by decide
  refine ⟨?_, ?_, ?_⟩
  · rw [openFiles_openedAtEnd, endDesc]
  · rw [openFiles_openedAtEnd, endDesc, hflags]
  · rw [openFiles_openedAtEnd, endDesc]
    exact hfits

/-- An entry that fits is written at the end of the log. -/
theorem LogAt.write (h : LogAt s name i bytes) (d : Fin 8) {entry : List UInt8}
    (hfits : bytes.length + entry.length ≤ sectorSize) :
    ((s.openedAtEnd i d).vfsWrite w (d : ℕ) entry).1 = .ok entry.length ∧
      LogAt (((s.openedAtEnd i d).vfsWrite w (d : ℕ) entry).2.vfsClose (d : ℕ)).2 name i
        (bytes ++ entry) := by
  have hinv := h.inv_openedAtEnd d
  have hsize : (s.inode i).sizeBytes.toNat = bytes.length := by rw [← h.content, length_content]
  have hfile : (s.openedAtEnd i d).file d = i := by rw [file, openFiles_openedAtEnd, endDesc]
  have hcursor : (s.openedAtEnd i d).cursor d = bytes.length := by
    rw [cursor, openFiles_openedAtEnd, endDesc, hsize]
  have hcontent : (s.openedAtEnd i d).content ((s.openedAtEnd i d).file d) = bytes := by
    rw [hfile]
    exact h.content
  -- The write is at the end of the content, and is accepted.
  have ha : Accepts w (s.openedAtEnd i d) d entry := accepts_openedAtEnd (by
    rw [hsize, wrap_eq (by simp only [sectorSize] at hfits; omega)]
    exact hfits)
  have hwritten := content_vfsWrite hinv ha (by rw [hcontent, hcursor]) (by rwa [hcursor])
  rw [hcontent, hcursor, hfile, List.take_length, Nat.sub_eq_zero_of_le (Nat.le_add_right _ _),
    List.replicate_zero, List.append_nil] at hwritten
  have hrewritten := hinv.rewritten w ha.isOpen entry
  have hfiles : ((s.openedAtEnd i d).vfsWrite w (d : ℕ) entry).2.openFiles =
      Function.update (s.openedAtEnd i d).openFiles d
        (((s.openedAtEnd i d).rewritten w d entry).advanced d entry.length) := by
    rw [ha.vfsWrite hinv]
    exact openFiles_advance hrewritten.up d entry.length
  refine ⟨by rw [ha.vfsWrite hinv], h.of_closed (hinv.vfsWrite w (d : ℕ) entry) ?_
    (fun e he => ?_) (fun j => ?_) hwritten⟩
  · rw [hfiles, Function.update_self]
    exact ha.isOpen
  · rw [hfiles, Function.update_of_ne he]
    exact Function.update_of_ne he ..
  · rw [ha.vfsWrite hinv]
    exact name_advance hrewritten.up d entry.length j

/-- An entry that does not fit is refused. -/
theorem LogAt.refuse (h : LogAt s name i bytes) (d : Fin 8) {entry : List UInt8}
    (hfull : sectorSize < w.wrap ((s.inode i).sizeBytes.toNat + entry.length)) :
    (s.openedAtEnd i d).vfsWrite w (d : ℕ) entry = (.error .noMemory, s.openedAtEnd i d) ∧
      LogAt ((s.openedAtEnd i d).vfsClose (d : ℕ)).2 name i bytes := by
  have hready : (s.openedAtEnd i d).ready = true := h.inv.ready
  have hflags : (oCreat ||| oWronly ||| oAppend) &&& oRdonly = 0 := by decide
  refine ⟨?_, h.of_closed (h.inv_openedAtEnd d) ?_ (fun e he => ?_) (fun j => ⟨rfl, rfl⟩)
    h.content⟩
  · rw [Vfs.vfsWrite, fd?_eq]
    simp only [openFiles_openedAtEnd, endDesc]
    rw [if_neg (by simp [hready]), if_neg (by simp [hflags]), if_pos hfull]
  · rw [openFiles_openedAtEnd, endDesc]
  · exact Function.update_of_ne he ..

/-- An append adds the entry as a whole when there is room for it in the sector, and
    refuses it otherwise. -/
theorem LogAt.append (h : LogAt s (fname path) i bytes) (hfree : s.freeFd ≠ none)
    (e : LogEntry w) :
    (s.vfsLogAppend w path e.bytes).1 =
        (if bytes.length + e.bytes.length ≤ sectorSize then .ok else .noMemory) ∧
      LogAt (s.vfsLogAppend w path e.bytes).2 (fname path) i
        (if bytes.length + e.bytes.length ≤ sectorSize then bytes ++ e.bytes else bytes) := by
  obtain ⟨d, hd⟩ := Option.ne_none_iff_exists'.1 hfree
  have hsize : (s.inode i).sizeBytes.toNat = bytes.length := by rw [← h.content, length_content]
  have hsector := (h.inv.slot i).sizeBytes
  rw [vfsLogAppend, h.vfsOpen_append hd, e.cString_bytes]
  by_cases hfits : bytes.length + e.bytes.length ≤ sectorSize
  · obtain ⟨hok, hlog⟩ := h.write (w := w) d hfits
    rw [if_pos hfits, if_pos hfits]
    simp only [hok]
    exact ⟨trivial, hlog⟩
  · -- The end of the entry does not wrap around.
    have hwrap : w.wrap ((s.inode i).sizeBytes.toNat + e.bytes.length) =
        bytes.length + e.bytes.length := by
      have := e.fits
      rw [SizeT.wrap_of_lt (by omega), hsize]
    obtain ⟨hwrite, hlog⟩ := h.refuse (w := w) d (by rw [hwrap]; exact Nat.lt_of_not_le hfits)
    rw [if_neg hfits, if_neg hfits]
    simp only [hwrite]
    exact ⟨trivial, hlog⟩

/-! ## Runs -/

/-- The entries appended to the log of a name, with the status of each append, in a run of
    appends and of calls on other files. The run begins, after any other, when the log is
    empty and no descriptor is open on it; there is a free descriptor at each append. -/
inductive LogRun (w : SizeT) (log : List UInt8) (i : Fin 16) :
    Vfs → List (List UInt8 × MkStatus) → Prop
  | start {s : Vfs} (h : Reachable w s) (hshort : (cString (fname log)).length ≤ 30)
      (hfound : s.findInode (fname log) = some i) (hempty : s.content i = [])
      (hclosed : ∀ d, (s.openFiles d).isOpen = true → s.file d ≠ i) : LogRun w log i s []
  | append {s : Vfs} {appends : List (List UInt8 × MkStatus)} (h : LogRun w log i s appends)
      (hfree : s.freeFd ≠ none) (e : LogEntry w) :
      LogRun w log i (s.vfsLogAppend w log e.bytes).2
        (appends ++ [(e.bytes, (s.vfsLogAppend w log e.bytes).1)])
  | call {s : Vfs} {appends : List (List UInt8 × MkStatus)} (h : LogRun w log i s appends)
      (c : Call) (hc : OnOthers (fname log) c) : LogRun w log i (s.exec w c) appends

/-- The entries whose append returned `MK_STATUS_OK`, one after the other. -/
def logged (appends : List (List UInt8 × MkStatus)) : List UInt8 :=
  (appends.filter fun a => a.2 = .ok).flatMap Prod.fst

theorem logged_append (appends : List (List UInt8 × MkStatus)) (entry : List UInt8)
    (status : MkStatus) : logged (appends ++ [(entry, status)]) =
      if status = .ok then logged appends ++ entry else logged appends := by
  rw [logged, List.filter_append, List.flatMap_append, logged]
  by_cases hok : status = .ok
  · simp [hok]
  · simp [hok]

variable {log : List UInt8} {appends : List (List UInt8 × MkStatus)}

theorem LogRun.logAt (h : LogRun w log i s appends) :
    LogAt s (fname log) i (logged appends) := by
  induction h with
  | start h hshort hfound hempty hclosed => exact ⟨h.inv, hshort, hfound, hclosed, hempty⟩
  | @append s appends _ hfree e ih =>
    obtain ⟨hstatus, hlog⟩ := ih.append hfree e
    rw [logged_append, hstatus]
    by_cases hfits : (logged appends).length + e.bytes.length ≤ sectorSize
    · rw [if_pos hfits] at hlog ⊢
      rwa [if_pos rfl]
    · rw [if_neg hfits] at hlog ⊢
      rwa [if_neg (by decide)]
  | call _ c hc ih => exact ih.exec hc w

/-- Over any run, the log is the entries whose append returned `MK_STATUS_OK`, in the order of
    the calls. It is at most a sector long, and an append is refused exactly when it would
    make it longer, and leaves it as it is. -/
theorem LogRun.content_eq (h : LogRun w log i s appends) :
    s.findInode (fname log) = some i ∧ s.content i = logged appends ∧
      (s.content i).length ≤ 4096 ∧
      ∀ e : LogEntry w, s.freeFd ≠ none →
        ((s.vfsLogAppend w log e.bytes).1 ≠ .ok ↔
          4096 < (s.content i).length + e.bytes.length) ∧
        ((s.vfsLogAppend w log e.bytes).1 ≠ .ok →
          (s.vfsLogAppend w log e.bytes).2.content i = s.content i) := by
  have hlog := h.logAt
  refine ⟨hlog.found, hlog.content, ?_, fun e hfree => ?_⟩
  · rw [length_content]
    exact (hlog.inv.slot i).sizeBytes
  · obtain ⟨hstatus, hafter⟩ := hlog.append hfree e
    rw [hstatus, hlog.content]
    by_cases hfits : (logged appends).length + e.bytes.length ≤ sectorSize
    · rw [if_pos hfits]
      exact ⟨iff_of_false (by simp) (Nat.not_lt.2 hfits), fun hne => absurd rfl hne⟩
    · rw [if_neg hfits] at hafter ⊢
      exact ⟨iff_of_true (by decide) (Nat.lt_of_not_le hfits), fun _ => hafter.content⟩

/-- A line of the default audit log. -/
def bootEntry : LogEntry .bits32 := ⟨ascii "BOOT\n", by decide, by decide⟩

/-- The default audit log after that line. -/
def booted : Vfs := (formatted.vfsLogAppend .bits32 (ascii "/wifi_audit.log") bootEntry.bytes).2

theorem logRun_booted : LogRun .bits32 (ascii "/wifi_audit.log") 1 booted
    [(bootEntry.bytes,
      (formatted.vfsLogAppend .bits32 (ascii "/wifi_audit.log") bootEntry.bytes).1)] :=
  .append (.start reachable_formatted (by decide) (by decide +kernel) (by decide +kernel)
    (by decide +kernel)) (by decide +kernel) bootEntry

/-- The line is the log, and one that would not fit after it is refused. -/
theorem content_eq_booted : booted.content 1 = ascii "BOOT\n" ∧
    ∀ e : LogEntry .bits32, e.bytes.length = 4092 →
      (booted.vfsLogAppend .bits32 (ascii "/wifi_audit.log") e.bytes).1 ≠ .ok := by
  obtain ⟨-, hcontent, -, happend⟩ := LogRun.content_eq logRun_booted
  have hlog : booted.content 1 = ascii "BOOT\n" := hcontent.trans (by decide +kernel)
  refine ⟨hlog, fun e he => (happend e (by decide +kernel)).1.2 ?_⟩
  rw [hlog, he]
  decide

end Vfs

end SliverOS
