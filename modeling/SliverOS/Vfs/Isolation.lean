import SliverOS.Vfs.Splice

/-!
# Descriptors and files

A descriptor holds the slot of its file, and not the file: `vfs_delete` does not
close the descriptors of the file it deletes, and `vfs_open` creates the next file
in the first free slot. The files created in a slot are therefore counted
(`Tracked.created`), and the file that a descriptor was opened on is recorded
(`Tracked.opened`). Neither is part of the code.

What is done through a descriptor touches no other file (`Tracked.Isolated`) as
long as no file is created in a slot that a descriptor still open is on
(`isolated_of_runs`). Otherwise the file created is read through that descriptor
(`not_isolated_of_reuses`), and written (`old_descriptor_writes`).
-/

namespace SliverOS

open Bytes Flash

namespace Vfs

variable {w : SizeT} {s : Vfs} {c : Call} {i j : Fin 16} {d e : Fin 8}

/-! ## What the calls do to descriptors -/

/-- The slot in which `vfs_open` creates a file, if it does. -/
def newSlot (s : Vfs) (path : List UInt8) (flags : UInt32) : Option (Fin 16) :=
  if s.ready ∧ s.findInode (fname path) = none ∧ flags &&& oCreat ≠ 0 then s.freeInode else none

theorem openFiles_targetInode (s : Vfs) (name : List UInt8) (flags : UInt32) :
    (s.targetInode name flags).2.openFiles = s.openFiles :=
  targetInode_rule (P := fun t => t.openFiles = s.openFiles) rfl name flags
    fun i _ => openFiles_create s i name flags

theorem freeFd_isOpen (h : s.freeFd = some d) : (s.openFiles d).isOpen = false := by
  simpa using List.find?_some h

/-- `vfs_open` changes no other descriptor than the one it returns, which was not open. -/
theorem vfsOpen_cases (s : Vfs) (path : List UInt8) (flags : UInt32) :
    (∃ status, (s.vfsOpen path flags).1 = .error status ∧
      (s.vfsOpen path flags).2.openFiles = s.openFiles) ∨
    ∃ d desc, (s.openFiles d).isOpen = false ∧ (s.vfsOpen path flags).1 = .ok d ∧
      (s.vfsOpen path flags).2.openFiles = Function.update s.openFiles d desc := by
  by_cases hready : s.ready = true
  swap
  · obtain ⟨status, heq⟩ := vfsOpen_of_not_ready hready path flags
    rw [heq]
    exact .inl ⟨_, rfl, rfl⟩
  have hfiles := openFiles_targetInode s (fname path) flags
  rcases vfsOpen_outcome hready path flags with ⟨status, heq⟩ | ⟨i, t, d, htarget, hfd, heq⟩
  · rw [heq]
    exact .inl ⟨_, rfl, hfiles⟩
  · rw [htarget] at hfiles
    have hclosed := freeFd_isOpen hfd
    rw [heq, ← hfiles]
    simp only
    by_cases htrunc : flags &&& oTrunc ≠ 0
    · rw [if_pos htrunc]
      exact .inr ⟨d, _, hclosed, rfl, Function.update_idem ..⟩
    · rw [if_neg htrunc]
      exact .inr ⟨d, _, hclosed, rfl, rfl⟩

/-- The descriptors that are open were open before, on the same slots. -/
def Keeps (s s' : Vfs) : Prop := ∀ d, (s'.openFiles d).isOpen = true →
  (s.openFiles d).isOpen = true ∧ s'.file d = s.file d

theorem Keeps.refl (s : Vfs) : Keeps s s := fun _ hopen => ⟨hopen, rfl⟩

theorem keeps_update {s s' : Vfs} {desc : VfsFileDesc}
    (hfiles : s'.openFiles = Function.update s.openFiles d desc)
    (hdesc : desc.isOpen = true → (s.openFiles d).isOpen = true ∧ desc.inodeIdx = s.file d) :
    Keeps s s' := by
  intro e hopen
  rw [file]
  rw [hfiles] at hopen ⊢
  by_cases he : e = d
  · subst he
    rw [Function.update_self] at hopen ⊢
    exact hdesc hopen
  · rw [Function.update_of_ne he] at hopen ⊢
    exact ⟨hopen, rfl⟩

theorem openFiles_advance (h : s.block.Up) (d : Fin 8) (size : ℕ) :
    (s.advance d size).openFiles = Function.update s.openFiles d (s.advanced d size) := by
  by_cases hlt : (s.inode (s.openFiles d).inodeIdx).sizeBytes < (s.advanced d size).cursor
  · obtain ⟨sb, -, -, heq⟩ := advance_of_lt h hlt
    rw [heq]
    rfl
  · rw [advance_of_le (UInt32.not_lt.1 hlt)]

/-- Only `vfs_open` opens descriptors. -/
theorem keeps_exec (h : Inv s) (hc : ∀ path flags, c ≠ .vfsOpen path flags) :
    Keeps s (s.exec w c) := by
  cases c with
  | vfsInit =>
    -- After a mount, none is open.
    have hclosed : ∀ d, ((s.exec w .vfsInit).openFiles d).isOpen = false := by
      intro d
      obtain ⟨b, -, -, -, -, -, heq⟩ := vfsInit_eq h.up.faults
      rw [exec, heq]
      split_ifs
      · rfl
      · rfl
    intro d hopen
    rw [hclosed d] at hopen
    cases hopen
  | vfsOpen path flags => exact absurd rfl (hc path flags)
  | vfsRead fd n =>
    exact vfsRead_rule (.refl s) h w fd n
      fun _ _ _ _ _ => keeps_update rfl fun hopen => ⟨hopen, rfl⟩
  | vfsWrite fd buffer =>
    refine vfsWrite_rule (.refl s) h w fd buffer fun d ha => ?_
    exact keeps_update (openFiles_advance (h.rewritten w ha.isOpen buffer).up d _)
      fun hopen => ⟨hopen, rfl⟩
  | vfsClose fd =>
    exact vfsClose_rule (.refl s) fd fun _ => keeps_update rfl fun hopen => by cases hopen
  | vfsDelete path => exact vfsDelete_rule (.refl s) path fun _ _ d hopen => ⟨hopen, rfl⟩

/-! ## What is done through a descriptor -/

/-- A file is as it was: its bytes and its size. -/
def SameFile (s s' : Vfs) (j : Fin 16) : Prop :=
  s'.content j = s.content j ∧ (s'.inode j).sizeBytes = (s.inode j).sizeBytes

/-- The file of a slot replaced by another. -/
def replaceFile (s : Vfs) (j : Fin 16) (size : UInt32) (page : Memory) : Vfs :=
  { s.setInode j { s.inode j with sizeBytes := size } with
    block := { s.block with
      flash := Function.update s.block.flash (s.inode j).startSector.toNat page } }

/-- The sector of a file is neither that of another one nor that of the superblock. -/
theorem Inv.sector_ne (h : Inv s) (hopen : (s.openFiles d).isOpen = true) (hj : s.file d ≠ j) :
    (s.inode (s.file d)).startSector.toNat ≠ (s.inode j).startSector.toNat :=
  (h.slot _).sector_ne (h.slot j) hj (h.desc d hopen).1

/-- A write leaves the files of the other slots as they are. -/
theorem sameFile_vfsWrite (h : Inv s) (hopen : (s.openFiles d).isOpen = true → s.file d ≠ j)
    (hj : (s.inode j).inUse ≠ 0) (w : SizeT) (buffer : List UInt8) :
    SameFile s (s.vfsWrite w (d : ℕ) buffer).2 j := by
  rcases vfsWrite_cases h w (d : ℕ) buffer with ⟨status, heq⟩ | ⟨e, he, ha⟩
  · rw [heq]
    exact ⟨rfl, rfl⟩
  obtain rfl : d = e := Fin.ext (Int.ofNat.inj he)
  have hfile := hopen ha.isOpen
  have hne := h.sector_ne ha.isOpen hfile
  have hsuper := startSector_ne_zero_iff.1 ((h.slot j).startSector_ne hj)
  have hflash : (s.rewritten w d buffer).block.flash (s.inode j).startSector.toNat =
      s.block.flash (s.inode j).startSector.toNat := by
    simp only [rewritten, VfsBlock.performAll, run_rewrite]
    exact Function.update_of_ne (Ne.symm hne) ..
  suffices hsame : ((s.vfsWrite w (d : ℕ) buffer).2.inode j) = s.inode j ∧
      (s.vfsWrite w (d : ℕ) buffer).2.block.flash (s.inode j).startSector.toNat =
        s.block.flash (s.inode j).startSector.toNat by
    rw [SameFile, content, hsame.1, hsame.2]
    exact ⟨rfl, rfl⟩
  rw [ha.vfsWrite h]
  -- The superblock is written too, when the file grows.
  by_cases hlt : (s.inode (s.file d)).sizeBytes <
      ((s.rewritten w d buffer).advanced d buffer.length).cursor
  · obtain ⟨sb, -, hsb, heq⟩ := advance_of_lt (h.rewritten w ha.isOpen buffer).up hlt
    simp only [heq, inode, commit, hsb, VfsBlock.performAll, List.nil_append, run_rewrite]
    exact ⟨Function.update_of_ne (Ne.symm hfile) ..,
      (Function.update_of_ne hsuper ..).trans hflash⟩
  · have hle := UInt32.not_lt.1 hlt
    rw [advance_of_le hle]
    exact ⟨rfl, hflash⟩

theorem inode_replaceFile_self (s : Vfs) (j : Fin 16) (size : UInt32) (page : Memory) :
    (s.replaceFile j size page).inode j = { s.inode j with sizeBytes := size } :=
  Function.update_self ..

/-- A read after the file of a slot has been replaced. -/
theorem fst_vfsRead_replaceFile (h : Inv s) (hopen : (s.openFiles d).isOpen = true) (w : SizeT)
    (n : ℕ) (j : Fin 16) (size : UInt32) (page : Memory) :
    ((s.replaceFile j size page).vfsRead w (d : ℕ) n).1 =
      if ((s.replaceFile j size page).inode (s.file d)).sizeBytes ≤ (s.openFiles d).cursor then
        .ok []
      else .ok (slice (blit s.readBuf 0 (slice ((s.replaceFile j size page).block.flash
        (s.inode (s.file d)).startSector.toNat) 0 sectorSize))
          (s.openFiles d).cursor.toNat (toRead w (s.openFiles d).cursor
            ((s.replaceFile j size page).inode (s.file d)).sizeBytes n)) := by
  have hup : (s.replaceFile j size page).block.Up :=
    ⟨h.up.initialized, h.up.sectorCount, h.up.crcTableReady, h.up.faults⟩
  have hstart : ((s.replaceFile j size page).inode (s.file d)).startSector =
      (s.inode (s.file d)).startSector := by
    by_cases hj : s.file d = j
    · subst hj
      rw [inode_replaceFile_self]
    · exact congrArg VfsInode.startSector (Function.update_of_ne hj ..)
  have hread := fst_vfsRead (s := s.replaceFile j size page) h.ready hup hopen
    (hstart ▸ (h.slot (s.file d)).lt) w n
  rwa [show (s.replaceFile j size page).file d = s.file d from rfl, hstart] at hread

/-- A read does not depend on the files of the other slots. -/
theorem vfsRead_replaceFile (h : Inv s) (hopen : (s.openFiles d).isOpen = true)
    (hfile : s.file d ≠ j) (w : SizeT) (n : ℕ) (size : UInt32) (page : Memory) :
    ((s.replaceFile j size page).vfsRead w (d : ℕ) n).1 = (s.vfsRead w (d : ℕ) n).1 := by
  have hinode : (s.replaceFile j size page).inode (s.file d) = s.inode (s.file d) :=
    Function.update_of_ne hfile ..
  have hflash : (s.replaceFile j size page).block.flash (s.inode (s.file d)).startSector.toNat =
      s.block.flash (s.inode (s.file d)).startSector.toNat :=
    Function.update_of_ne (h.sector_ne hopen hfile) ..
  rw [fst_vfsRead_replaceFile h hopen, hinode, hflash,
    fst_vfsRead h.ready h.up hopen (h.slot _).lt]

/-- Through a descriptor that is not open, nothing is read. -/
theorem vfsRead_of_closed (hready : s.ready = true) (hopen : (s.openFiles d).isOpen ≠ true)
    (w : SizeT) (n : ℕ) : (s.vfsRead w (d : ℕ) n).1 = .error .invalidState := by
  rw [vfsRead, fd?_eq]
  simp only
  rw [if_neg (by simp [hready]), if_pos (by simpa using hopen)]

end Vfs

open Vfs

/-! ## Files -/

/-- A file: the first, second, ... created in a slot, after the one that was there. -/
structure File where
  slot : Fin 16
  nth : ℕ
  deriving DecidableEq

/-- The file system, with the numbers of files created in each slot, and the files that the
    descriptors were opened on. -/
structure Tracked where
  vfs : Vfs
  created : Fin 16 → ℕ
  opened : Fin 8 → File

namespace Tracked

/-- The file of a slot. -/
def current (t : Tracked) (j : Fin 16) : File := ⟨j, t.created j⟩

/-- The numbers of files created, after a call. -/
def createdAfter (t : Tracked) : Vfs.Call → Fin 16 → ℕ
  | .vfsOpen path flags, j =>
    if t.vfs.newSlot path flags = some j then t.created j + 1 else t.created j
  | _, j => t.created j

/-- The files that the descriptors were opened on, after a call. -/
def openedAfter (w : SizeT) (t : Tracked) : Vfs.Call → Fin 8 → File
  | .vfsOpen path flags, d =>
    let slot := (t.vfs.exec w (.vfsOpen path flags)).file d
    if (t.vfs.vfsOpen path flags).1.toOption = some d then
      ⟨slot, t.createdAfter (.vfsOpen path flags) slot⟩
    else t.opened d
  | _, d => t.opened d

/-- The file system after a call. -/
def exec (w : SizeT) (t : Tracked) (c : Vfs.Call) : Tracked where
  vfs := t.vfs.exec w c
  created := t.createdAfter c
  opened := t.openedAfter w c

/-- What is done through a descriptor touches no other file than the one it was
    opened on: writes leave the others as they are, and reads do not depend on them. -/
structure Isolated (w : SizeT) (t : Tracked) (d : Fin 8) : Prop where
  write : ∀ j, (t.vfs.inode j).inUse ≠ 0 → t.current j ≠ t.opened d →
    ∀ buffer, SameFile t.vfs (t.vfs.vfsWrite w (d : ℕ) buffer).2 j
  read : ∀ j, (t.vfs.inode j).inUse ≠ 0 → t.current j ≠ t.opened d →
    ∀ n size page, size.toNat ≤ sectorSize →
      ((t.vfs.replaceFile j size page).vfsRead w (d : ℕ) n).1 = (t.vfs.vfsRead w (d : ℕ) n).1

/-- The runs whose calls are made in states that allow them. They start, after any other run,
    when no descriptor is open. -/
inductive Run (w : SizeT) (Allowed : Vfs → Vfs.Call → Prop) : Tracked → Prop
  | start {t : Tracked} (h : Reachable w t.vfs)
      (hclosed : ∀ d, (t.vfs.openFiles d).isOpen = false) : Run w Allowed t
  | call {t : Tracked} (h : Run w Allowed t) (c : Vfs.Call) (hc : Allowed t.vfs c) :
      Run w Allowed (t.exec w c)

/-- A file is created in a slot that a descriptor still open is on. -/
def Reuses (s : Vfs) : Vfs.Call → Prop
  | .vfsOpen path flags =>
    ∃ d, (s.openFiles d).isOpen = true ∧ s.newSlot path flags = some (s.file d)
  | _ => False

instance (s : Vfs) (path : List UInt8) (flags : UInt32) :
    Decidable (Reuses s (.vfsOpen path flags)) :=
  inferInstanceAs (Decidable (∃ d, (s.openFiles d).isOpen = true ∧
    s.newSlot path flags = some (s.file d)))

variable {w : SizeT} {t : Tracked} {c : Vfs.Call} {d : Fin 8} {Allowed : Vfs → Vfs.Call → Prop}

theorem Run.inv (h : Run w Allowed t) : Inv t.vfs := by
  induction h with
  | start h _ => exact h.inv
  | call _ c _ ih => exact ih.exec w c

/-! ## The files that descriptors are on -/

/-- `vfs_open` opens a descriptor that was not open, and leaves the others as they are. -/
theorem opened_or_desc_eq (w : SizeT) (t : Tracked) (path : List UInt8) (flags : UInt32)
    (d : Fin 8) : (t.vfs.openFiles d).isOpen = false ∧
        (t.vfs.vfsOpen path flags).1.toOption = some d ∨
      (t.exec w (.vfsOpen path flags)).vfs.openFiles d = t.vfs.openFiles d ∧
        (t.exec w (.vfsOpen path flags)).opened d = t.opened d := by
  rcases vfsOpen_cases t.vfs path flags with ⟨status, hr, hfiles⟩ | ⟨e, desc, hclosed, hr, hfiles⟩
  · refine .inr ⟨congrFun hfiles d, if_neg ?_⟩
    rw [hr]
    exact fun heq => by cases heq
  by_cases hd : e = d
  · subst hd
    refine .inl ⟨hclosed, ?_⟩
    rw [hr]
    rfl
  · refine .inr ⟨(congrFun hfiles d).trans (Function.update_of_ne (Ne.symm hd) ..), if_neg ?_⟩
    rw [hr]
    exact fun heq => hd (Option.some.inj heq)

/-- A descriptor that is open after a call was opened by it, or was open before it. -/
theorem isOpen_exec (h : Inv t.vfs) (hopen : ((t.exec w c).vfs.openFiles d).isOpen = true) :
    (t.exec w c).opened d = (t.exec w c).current ((t.exec w c).vfs.file d) ∨
      (t.vfs.openFiles d).isOpen = true ∧ (t.exec w c).vfs.file d = t.vfs.file d ∧
        (t.exec w c).opened d = t.opened d := by
  by_cases hc : ∃ path flags, c = .vfsOpen path flags
  · obtain ⟨path, flags, rfl⟩ := hc
    rcases opened_or_desc_eq w t path flags d with ⟨_, hr⟩ | ⟨hdesc, hopened⟩
    · exact .inl (if_pos hr)
    · exact .inr ⟨hdesc ▸ hopen, congrArg VfsFileDesc.inodeIdx hdesc, hopened⟩
  · obtain ⟨hbefore, hfile⟩ := keeps_exec h (fun path flags heq => hc ⟨path, flags, heq⟩) d hopen
    refine .inr ⟨hbefore, hfile, ?_⟩
    cases c with
    | vfsOpen path flags => exact absurd ⟨path, flags, rfl⟩ hc
    | _ => rfl

/-- A call that creates no file in the slot of an open descriptor leaves its file the
    current one. -/
theorem created_exec (hc : ¬Reuses t.vfs c) (hopen : (t.vfs.openFiles d).isOpen = true) :
    (t.exec w c).created (t.vfs.file d) = t.created (t.vfs.file d) := by
  cases c with
  | vfsOpen path flags => exact if_neg fun hslot => hc ⟨d, hopen, hslot⟩
  | _ => rfl

/-- Unless slots are reused, the open descriptors are on the files they were opened on. -/
theorem Run.opened_eq (h : Run w (fun s c => ¬Reuses s c) t)
    (hopen : (t.vfs.openFiles d).isOpen = true) : t.opened d = t.current (t.vfs.file d) := by
  induction h with
  | start _ hclosed =>
    rw [hclosed d] at hopen
    cases hopen
  | call h c hc ih =>
    rcases isOpen_exec h.inv hopen with hnew | ⟨hbefore, hfile, hopened⟩
    · exact hnew
    · rw [hopened, ih hbefore, hfile, current, current, created_exec hc hbefore]

/-- What is done through a descriptor on the file it was opened on touches no other. -/
theorem isolated_of_opened (h : Inv t.vfs) (w : SizeT)
    (hopened : (t.vfs.openFiles d).isOpen = true → t.opened d = t.current (t.vfs.file d)) :
    Isolated w t d := by
  have hslot {j : Fin 16} (hne : t.current j ≠ t.opened d)
      (hopen : (t.vfs.openFiles d).isOpen = true) : t.vfs.file d ≠ j := by
    rintro rfl
    exact hne (hopened hopen).symm
  refine ⟨fun j hj hne buffer => sameFile_vfsWrite h (hslot hne) hj w buffer,
    fun j _ hne n size page _ => ?_⟩
  by_cases hopen : (t.vfs.openFiles d).isOpen = true
  · exact vfsRead_replaceFile h hopen (hslot hne hopen) w n size page
  · rw [vfsRead_of_closed h.ready hopen]
    exact vfsRead_of_closed (s := t.vfs.replaceFile j size page) h.ready hopen w n

/-- A flash just formatted. -/
def start : Tracked := ⟨formatted, fun _ => 0, fun _ => ⟨0, 0⟩⟩

theorem run_start (Allowed : Vfs → Vfs.Call → Prop) : Run w Allowed start :=
  .start reachable_formatted (by decide +kernel)

/-- In a run that creates no file in the slot of a descriptor still open, what is done
    through a descriptor touches no other file than the one it was opened on. -/
theorem isolated_of_run (h : Run w (fun s c => ¬Reuses s c) t) (d : Fin 8) : Isolated w t d :=
  isolated_of_opened h.inv w fun hopen => h.opened_eq hopen

/-- A file is created, and deleted, and its descriptor is closed before another one is created. -/
theorem isolated_of_run_closed : Isolated .bits32
    ((((start.exec .bits32 (.vfsOpen (ascii "a") (oWronly ||| oCreat))).exec .bits32
      (.vfsDelete (ascii "a"))).exec .bits32 (.vfsClose 0)).exec .bits32
      (.vfsOpen (ascii "b") (oWronly ||| oCreat))) 0 :=
  isolated_of_run (.call (.call (.call (.call (run_start _) _ (by decide +kernel)) _ id) _ id) _
    (by decide +kernel)) 0

/-! ## Slots that are reused -/

/-- In any run, the open descriptors are on the slots of the files they were opened on. -/
theorem Run.nth_le (h : Run w Allowed t) (hopen : (t.vfs.openFiles d).isOpen = true) :
    (t.opened d).slot = t.vfs.file d ∧ (t.opened d).nth ≤ t.created (t.vfs.file d) := by
  induction h with
  | start _ hclosed =>
    rw [hclosed d] at hopen
    cases hopen
  | @call t h c _ ih =>
    rcases isOpen_exec h.inv hopen with hnew | ⟨hbefore, hfile, hopened⟩
    · rw [hnew]
      exact ⟨rfl, Nat.le_refl _⟩
    · have hgrows (j : Fin 16) : t.created j ≤ t.createdAfter c j := by
        cases c with
        | vfsOpen path flags =>
          rw [createdAfter]
          split_ifs
          · exact Nat.le_succ _
          · exact Nat.le_refl _
        | _ => exact Nat.le_refl _
      rw [hopened, hfile]
      exact ⟨(ih hbefore).1, (ih hbefore).2.trans (hgrows _)⟩

/-- Through a descriptor that is not at the end of the sector, a file is read that it was not
    opened on. -/
theorem not_isolated (h : Inv t.vfs) (hopen : (t.vfs.openFiles d).isOpen = true)
    (huse : (t.vfs.inode (t.vfs.file d)).inUse ≠ 0)
    (hne : t.current (t.vfs.file d) ≠ t.opened d) (hcursor : t.vfs.cursor d < sectorSize) :
    ¬Isolated w t d := by
  intro hi
  -- A file of size 0 and a file that fills the sector are not read alike.
  have hempty := hi.read _ huse hne 1 0 (fun _ => 0) (Nat.zero_le _)
  have hfull := hi.read _ huse hne 1 4096 (fun _ => 0) (Nat.le_refl _)
  have hlt : (t.vfs.openFiles d).cursor < 4096 := UInt32.lt_iff_toNat_lt.2 hcursor
  rw [← hempty, fst_vfsRead_replaceFile h hopen, fst_vfsRead_replaceFile h hopen,
    inode_replaceFile_self, inode_replaceFile_self, if_neg (UInt32.not_le.2 hlt),
    if_pos (UInt32.le_iff_toNat_le.2 (Nat.zero_le _))] at hfull
  have hlen := congrArg List.length (Except.ok.inj hfull)
  have h4096 : (4096 : UInt32).toNat = sectorSize := rfl
  rw [cursor, sectorSize] at hcursor
  rw [length_slice, toRead_eq hlt (wrap_eq (by omega)), h4096, sectorSize, List.length_nil] at hlen
  omega

theorem inUse_truncate (s : Vfs) (i : Fin 16) (d : Fin 8) :
    ((s.truncate i d).inode i).inUse = (s.inode i).inUse := by
  have hinode : (s.truncate i d).inode i =
      Function.update s.superblock.inodes i { s.inode i with sizeBytes := 0 } i := rfl
  rw [hinode, Function.update_self]

/-- A file created is in use. -/
theorem inUse_exec_of_newSlot {s : Vfs} (h : Inv s) {path : List UInt8} {flags : UInt32}
    {i : Fin 16} (hnew : s.newSlot path flags = some i) (w : SizeT) :
    ((s.exec w (.vfsOpen path flags)).inode i).inUse ≠ 0 := by
  rw [newSlot] at hnew
  split_ifs at hnew with hcreates
  obtain ⟨hready, hfind, hcreat⟩ := hcreates
  have htarget := targetInode_of_creat hfind hcreat hnew
  have huse := inUse_targetInode htarget
  rw [Vfs.exec]
  rcases vfsOpen_of_targetInode h.ready htarget with ⟨-, heq⟩ | ⟨d, -, heq⟩
  · rwa [heq]
  · rw [heq]
    simp only
    by_cases htrunc : flags &&& oTrunc ≠ 0
    · rw [if_pos htrunc, inUse_truncate]
      exact huse
    · rw [if_neg htrunc]
      exact huse

/-- When a file is created in the slot of a descriptor still open, it is read through it,
    unless the descriptor is at the end of the sector. -/
theorem not_isolated_of_reuses (h : Run w Allowed t) (hc : Reuses t.vfs c) :
    ∃ d, (t.vfs.openFiles d).isOpen = true ∧
      (t.vfs.cursor d < sectorSize → ¬Isolated w (t.exec w c) d) := by
  cases c with
  | vfsOpen path flags =>
    obtain ⟨d, hopen, hslot⟩ := hc
    obtain ⟨_, hnth⟩ := h.nth_le hopen
    rcases opened_or_desc_eq w t path flags d with ⟨hclosed, _⟩ | hdesc
    · rw [hopen] at hclosed
      cases hclosed
    have hinv : Inv (t.exec w (.vfsOpen path flags)).vfs := h.inv.exec w (.vfsOpen path flags)
    have hfile : (t.exec w (.vfsOpen path flags)).vfs.file d = t.vfs.file d :=
      congrArg VfsFileDesc.inodeIdx hdesc.1
    refine ⟨d, hopen, fun hcursor => not_isolated hinv (hdesc.1 ▸ hopen) ?_ ?_ ?_⟩
    · rw [hfile]
      exact inUse_exec_of_newSlot h.inv hslot w
    · rw [hfile, hdesc.2]
      intro heq
      have hcreated : (t.exec w (.vfsOpen path flags)).created (t.vfs.file d) =
          t.created (t.vfs.file d) + 1 := if_pos hslot
      rw [← heq, current, hcreated] at hnth
      exact Nat.not_succ_le_self _ hnth
    · rw [cursor, hdesc.1]
      exact hcursor
  | _ => exact hc.elim

/-! ## A slot that is reused -/

/-- A file is created and opened by the first descriptor, and deleted; another one is created
    in its slot and opened by the second descriptor, and written. -/
def reused : Tracked :=
  (((start.exec .bits32 (.vfsOpen (ascii "a") (oWronly ||| oCreat))).exec .bits32
    (.vfsDelete (ascii "a"))).exec .bits32
    (.vfsOpen (ascii "b") (oWronly ||| oCreat))).exec .bits32 (.vfsWrite 1 (ascii "x"))

theorem run_reused : Run .bits32 (fun _ _ => True) reused :=
  .call (.call (.call (.call (run_start _) _ trivial) _ trivial) _ trivial) _ trivial

/-- The new file is written through the descriptor of the old one. -/
theorem old_descriptor_writes : Run .bits32 (fun _ _ => True) reused ∧
    reused.opened 0 = ⟨2, 1⟩ ∧ reused.current 2 = ⟨2, 2⟩ ∧ (reused.vfs.inode 2).inUse = 1 ∧
    reused.vfs.content 2 = ascii "x" ∧
    (reused.vfs.vfsWrite .bits32 (0 : Fin 8) (ascii "y")).2.content 2 = ascii "y" ∧
    ¬Isolated .bits32 reused 0 := by
  have hopened : reused.opened 0 = ⟨2, 1⟩ := by decide +kernel
  have hcurrent : reused.current 2 = ⟨2, 2⟩ := by decide +kernel
  have huse : (reused.vfs.inode 2).inUse = 1 := by decide +kernel
  have hbefore : reused.vfs.content 2 = ascii "x" := by decide +kernel
  have hafter : (reused.vfs.vfsWrite .bits32 (0 : Fin 8) (ascii "y")).2.content 2 = ascii "y" := by
    decide +kernel
  refine ⟨run_reused, hopened, hcurrent, huse, hbefore, hafter, fun hi => ?_⟩
  have hsame := (hi.write 2 (by rw [huse]; decide) (by rw [hopened, hcurrent]; decide)
    (ascii "y")).1
  rw [hbefore, hafter] at hsame
  exact absurd hsame (by decide)

end Tracked

end SliverOS
