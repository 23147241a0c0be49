import SliverOS.Vfs.Splice

/-!
# Power cuts during a change

A call that changes a file erases its sector, and programs it if it writes, and
then erases and programs the superblock, unless the size of the file is as
before (`Change`). The power is cut during these steps, and the file system is
mounted again.

There is one superblock and its checksum is not checked, so a cut between these
steps can lose the file, and a cut while the superblock is rewritten all of the
files. The cuts after which no file is lost are those of `Change.Safe`
(`Change.Valid.recovered_iff`).
-/

namespace SliverOS

open Bytes Flash

namespace Vfs

/-- A file: its name and its bytes. -/
structure File where
  name : List UInt8
  bytes : List UInt8
  deriving DecidableEq

/-- The file of an inode in use, on a flash. -/
def fileIn (ino : VfsInode) (flash : Image) : Option File :=
  if ino.inUse = 0 then none
  else some ⟨cString ino.name.toList, slice (flash ino.startSector.toNat) 0 ino.sizeBytes.toNat⟩

/-- The file of a slot. -/
def fileAt (s : Vfs) (i : Fin 16) : Option File := fileIn (s.inode i) s.block.flash

variable {w : SizeT} {s : Vfs} {i k : Fin 16} {ino ino' : VfsInode} {flash flash' : Image} {n j : ℕ}

theorem fileIn_eq_none : fileIn ino flash = none ↔ ino.inUse = 0 := by
  rw [fileIn]
  split <;> simp_all

theorem fileIn_of_inUse (h : ino.inUse ≠ 0) : fileIn ino flash =
    some ⟨cString ino.name.toList, slice (flash ino.startSector.toNat) 0 ino.sizeBytes.toNat⟩ :=
  if_neg h

/-- A file is on its sector only. -/
theorem fileIn_congr (h : ino.inUse ≠ 0 →
    flash ino.startSector.toNat = flash' ino.startSector.toNat) :
    fileIn ino flash = fileIn ino flash' := by
  by_cases huse : ino.inUse = 0
  · rw [fileIn_eq_none.2 huse, fileIn_eq_none.2 huse]
  · rw [fileIn_of_inUse huse, fileIn_of_inUse huse, h huse]

/-- Inodes in use with the same name, place and size are of the same file. -/
theorem fileIn_eq_of_fields (hname : ino.name = ino'.name)
    (hstart : ino.startSector = ino'.startSector) (hsize : ino.sizeBytes = ino'.sizeBytes)
    (h : ino.inUse ≠ 0) (h' : ino'.inUse ≠ 0) : fileIn ino flash = fileIn ino' flash := by
  rw [fileIn_of_inUse h, fileIn_of_inUse h', hname, hstart, hsize]

/-- Files of different sizes are different. -/
theorem fileIn_ne_of_size (h : ino.inUse ≠ 0) (hsize : ino.sizeBytes ≠ ino'.sizeBytes) :
    fileIn ino flash ≠ fileIn ino' flash' := by
  intro heq
  rw [fileIn_of_inUse h, fileIn] at heq
  split at heq
  · cases heq
  · have hbytes := congrArg (fun file : Option File => file.map fun file => file.bytes.length) heq
    simp only [Option.map_some, length_slice, Option.some.injEq, UInt32.toNat_inj] at hbytes
    exact hsize hbytes

/-! ## What is mounted -/

/-- The default files. -/
def defaultFile (i : Fin 16) : Option File :=
  if i = 0 then some ⟨ascii "macro.txt", defaultMacro⟩
  else if i = 1 then some ⟨ascii "wifi_audit.log", []⟩
  else none

variable {medium : Medium}

/-- The files of a superblock that is read. -/
theorem fileAt_mount (hp : medium.persistent = true)
    (hm : (VfsSuperblock.ofMemory (flash 0)).magic = blockMagic) :
    (mount medium flash).fileAt i = fileIn ((VfsSuperblock.ofMemory (flash 0)).inodes i) flash := by
  obtain ⟨b, -, hflash, -, heq⟩ := vfsInit_mounted (s := powerOn medium flash []) rfl hp hm
  rw [mount, heq, fileAt, inode]
  simp only [hflash]
  rfl

/-- The default files, when there is none. -/
theorem fileAt_mount_of_blank (hm : medium.persistent = true →
    (VfsSuperblock.ofMemory (flash 0)).magic ≠ blockMagic) :
    (mount medium flash).fileAt i = defaultFile i := by
  obtain ⟨b, sb, -, -, hinodes, heq⟩ := vfsInit_formatted (s := powerOn medium flash []) rfl hm
  have hseeded : run b.medium.cell b.flash (formatSteps ++ rewrite 0 sb.bytes) 1 =
      written defaultMacro := by
    rw [formatSteps, run_append, run_append, run_rewrite, run_rewrite]
    rw [Function.update_of_ne (by decide), run_of_ne (by simp [Step.sector]),
      Function.update_self]
  rw [mount, heq, fileAt]
  simp only [inode, commit, VfsBlock.performAll, hinodes]
  rw [defaultFile]
  split
  · next hi =>
    subst hi
    rw [fileIn_of_inUse (by decide +kernel)]
    have hstart : (defaultInodes 0).startSector.toNat = 1 := rfl
    have hname : cString (defaultInodes 0).name.toList = ascii "macro.txt" := by decide +kernel
    have hsize : (defaultInodes 0).sizeBytes.toNat = defaultMacro.length := by decide +kernel
    rw [hstart, hseeded, hname, hsize, slice_written (Nat.le_refl _), Nat.sub_self,
      List.replicate_zero, List.append_nil]
  split
  · next hi =>
    subst hi
    rw [fileIn_of_inUse (by decide +kernel)]
    have hname : cString (defaultInodes 1).name.toList = ascii "wifi_audit.log" := by
      decide +kernel
    rw [hname]
    rfl
  · next h0 h1 =>
    rw [fileIn_eq_none, defaultInodes, Function.update_of_ne h1, Function.update_of_ne h0]
    rfl

/-! ## Changes of a file -/

/-- A change of the file of a slot: the sector of the file is erased, and
    programmed if there are data, and the superblock is rewritten if it is
    synchronised. -/
structure Change where
  slot : Fin 16
  /-- The inode of the slot after the change. -/
  inode : VfsInode
  data : Option (List UInt8)
  sync : Bool

namespace Change

variable (ch : Change)

/-- The sector of the file. -/
def sector : ℕ := ch.inode.startSector.toNat

/-- The sector after the change. -/
def image : Memory := written (ch.data.getD [])

/-- The file after the change. -/
def result : Option File := fileIn ch.inode fun _ => ch.image

/-- The steps on the sector of the file. -/
def dataSteps : List Step :=
  match ch.data with
  | none => [.erase ch.sector]
  | some data => rewrite ch.sector data

/-- The steps of the change, the superblock being `sb` after it. -/
def steps (sb : VfsSuperblock) : List Step :=
  ch.dataSteps ++ if ch.sync then rewrite 0 sb.bytes else []

/-- What holds of the changes that the calls make. -/
structure Valid (s : Vfs) (ch : Change) : Prop where
  slotOk : SlotOk ch.slot ch.inode
  startSector_ne : ch.inode.startSector ≠ 0
  /-- A file that there was keeps its name and its sector. -/
  kept : (s.inode ch.slot).inUse ≠ 0 → ch.inode.name = (s.inode ch.slot).name ∧
    ch.inode.startSector = (s.inode ch.slot).startSector
  /-- A file that is removed keeps its size. -/
  removed : (s.inode ch.slot).inUse ≠ 0 → ch.inode.inUse = 0 →
    ch.inode.sizeBytes = (s.inode ch.slot).sizeBytes
  /-- A file that is synchronised and keeps its size is empty. -/
  resized : ch.sync = true → ch.inode.inUse ≠ 0 → (s.inode ch.slot).inUse ≠ 0 →
    ch.inode.sizeBytes = (s.inode ch.slot).sizeBytes → ch.inode.sizeBytes = 0
  /-- A file that is not synchronised is written within its size. -/
  unsynced : ch.sync = false → ch.inode = s.inode ch.slot ∧ ∃ data, ch.data = some data ∧
    data.length ≤ (s.inode ch.slot).sizeBytes.toNat

/-- The sector of the file has been erased and some bytes programmed, and the
    superblock is as before. The file is as before if its bytes were these and
    then erased ones; it is as after if the superblock stays and the bytes left
    to program are as if erased. -/
def SectorSafe (s : Vfs) (ch : Change) (programmed : List UInt8) : Prop :=
  (s.inode ch.slot).inUse ≠ 0 →
    s.content ch.slot = slice (written programmed) 0 (s.inode ch.slot).sizeBytes.toNat ∨
      ch.sync = false ∧ ∀ b ∈ (ch.data.getD []).drop programmed.length, b = 0xFF

/-- The sector of the file is as after the change, and of the superblock, erased,
    `j` bytes are programmed. Without its magic, there are the default files
    only. With it, a file is kept if its inode is programmed up to the size; that
    it was removed needs all of its inode, unless there were only erased bytes in it. -/
def SuperblockSafe (s : Vfs) (ch : Change) (j : ℕ) : Prop :=
  if j < 4 then
    (∀ k ≠ ch.slot, s.fileAt k ≠ none → s.fileAt k = defaultFile k) ∧
      (defaultFile ch.slot = s.fileAt ch.slot ∨ defaultFile ch.slot = ch.result)
  else
    (∀ k ≠ ch.slot, s.fileAt k ≠ none → 48 + 48 * (k : ℕ) ≤ j) ∧
      if ch.inode.inUse ≠ 0 then 48 + 48 * (ch.slot : ℕ) ≤ j
      else 56 + 48 * (ch.slot : ℕ) ≤ j ∨ 48 + 48 * (ch.slot : ℕ) ≤ j ∧
        (s.inode ch.slot).inUse ≠ 0 ∧
        s.content ch.slot = slice ch.image 0 (s.inode ch.slot).sizeBytes.toNat

/-- The power cut after `n` steps of the change, and `j` bytes of the next one,
    is safe: the condition is that of what is cut, if anything. -/
def Safe (s : Vfs) (ch : Change) (n j : ℕ) : Prop :=
  if n = 0 then True
  else if n < ch.dataSteps.length then ch.SectorSafe s ((ch.data.getD []).take j)
  else if ch.sync = false then True
  else if n = ch.dataSteps.length then ch.SectorSafe s (ch.data.getD [])
  else if n = ch.dataSteps.length + 1 then ch.SuperblockSafe s j
  else True

end Change

/-- The files of `t` are those of `s`, but for that of the slot `i`, which is as
    in `s` or as given. -/
def Recovered (s : Vfs) (i : Fin 16) (after : Option File) (t : Vfs) : Prop :=
  (∀ k ≠ i, s.fileAt k ≠ none → t.fileAt k = s.fileAt k) ∧
    (t.fileAt i = s.fileAt i ∨ t.fileAt i = after)

section

variable {ch : Change} {sb : VfsSuperblock} {programmed : List UInt8}

/-- The file of another slot is not on the sector changed. -/
theorem Change.Valid.fileIn_eq (hv : ch.Valid s) (h : Inv s) (hk : k ≠ ch.slot)
    (hflash : ∀ a ≠ 0, a ≠ ch.sector → flash a = s.block.flash a) :
    fileIn (s.inode k) flash = s.fileAt k := by
  refine fileIn_congr fun huse => hflash _ ?_ ?_
  · exact startSector_ne_zero_iff.1 ((h.slot k).startSector_ne huse)
  · exact (hv.slotOk.sector_ne (h.slot k) (Ne.symm hk) hv.startSector_ne).symm

/-- A cut before the superblock is erased. -/
theorem Change.Valid.recovered_sector (hv : ch.Valid s) (h : Inv s)
    (hp : medium.persistent = true) (hsuper : flash 0 = s.block.flash 0)
    (hflash : ∀ a ≠ 0, a ≠ ch.sector → flash a = s.block.flash a)
    (hsector : flash ch.sector = written programmed)
    (hprogrammed : programmed <+: ch.data.getD []) :
    Recovered s ch.slot ch.result (mount medium flash) ↔ ch.SectorSafe s programmed := by
  have hread : VfsSuperblock.ofMemory (flash 0) = s.superblock :=
    VfsSuperblock.ofMemory_eq fun x hx => by rw [hsuper, h.synced x hx]
  have hmount (k : Fin 16) : (mount medium flash).fileAt k = fileIn (s.inode k) flash := by
    rw [fileAt_mount hp (hread ▸ h.magic), hread]
    rfl
  have hothers : ∀ k ≠ ch.slot, s.fileAt k ≠ none → (mount medium flash).fileAt k = s.fileAt k :=
    fun k hk _ => (hmount k).trans (hv.fileIn_eq h hk hflash)
  rw [Recovered, and_iff_right hothers, hmount, Change.SectorSafe]
  by_cases huse : (s.inode ch.slot).inUse = 0
  · simp only [huse, fileAt, fileIn_eq_none.2 huse]
    simp
  obtain ⟨hname, hstart⟩ := hv.kept huse
  have hsectorOld : (s.inode ch.slot).startSector.toNat = ch.sector := by
    rw [Change.sector, hstart]
  have hfile : fileIn (s.inode ch.slot) flash = some ⟨cString (s.inode ch.slot).name.toList,
      slice (written programmed) 0 (s.inode ch.slot).sizeBytes.toNat⟩ := by
    rw [fileIn_of_inUse huse, hsectorOld, hsector]
  have hbefore : fileIn (s.inode ch.slot) flash = s.fileAt ch.slot ↔
      s.content ch.slot = slice (written programmed) 0 (s.inode ch.slot).sizeBytes.toNat := by
    rw [hfile, fileAt, fileIn_of_inUse huse, eq_comm]
    simp [content]
  rw [hbefore, forall_prop_of_true huse]
  cases hsync : ch.sync with
  | false =>
    -- The superblock stays: what is left to program decides.
    obtain ⟨hinode, data, hdata, hlen⟩ := hv.unsynced hsync
    obtain ⟨rest, hrest⟩ := hprogrammed
    rw [hdata, Option.getD_some] at hrest
    have hafter : fileIn (s.inode ch.slot) flash = ch.result ↔ ∀ b ∈ rest, b = 0xFF := by
      rw [hfile, Change.result, hinode, fileIn_of_inUse huse, Change.image, hdata,
        Option.getD_some, ← hrest, ← slice_written_append (hrest ▸ hlen), eq_comm]
      simp
    rw [hafter, hdata, Option.getD_some, ← hrest, List.drop_left]
    simp
  | true =>
    -- The file after the change is another one, unless it is empty.
    simp only [Bool.true_eq_false, false_and, or_false]
    refine or_iff_left_of_imp fun hafter => ?_
    by_cases hremoved : ch.inode.inUse = 0
    · rw [hfile, Change.result, fileIn_eq_none.2 hremoved] at hafter
      cases hafter
    by_cases hsize : ch.inode.sizeBytes = (s.inode ch.slot).sizeBytes
    · have hzero := hv.resized hsync hremoved huse hsize
      rw [content, ← hsize, hzero]
      rfl
    · exact absurd hafter (fileIn_ne_of_size huse (Ne.symm hsize))

/-- The inode of a file that is as large as no file can be. -/
theorem fileIn_ne_of_lt (h : ino.inUse ≠ 0) (hlt : sectorSize < ino.sizeBytes.toNat)
    (hok : SlotOk i ino') : fileIn ino flash ≠ fileIn ino' flash' := by
  refine fileIn_ne_of_size h fun heq => ?_
  have hle := hok.sizeBytes
  rw [heq] at hlt
  omega

/-- The file of an inode whose bytes are there up to the size. -/
theorem torn_file_eq {m : Memory} (h : sb.Torn j m) (hj : 48 + 48 * (k : ℕ) ≤ j)
    (huse : (sb.inodes k).inUse ≠ 0) :
    fileIn ((VfsSuperblock.ofMemory m).inodes k) flash = fileIn (sb.inodes k) flash := by
  obtain ⟨hname, hstart, hsize⟩ := h.file_eq hj
  refine fileIn_eq_of_fields hname hstart hsize ?_ huse
  by_cases hwhole : 56 + 48 * (k : ℕ) ≤ j
  · rwa [h.inode_eq hwhole]
  · exact h.inUse_ne (by omega)

/-- The file of another slot is as before if its inode is there up to the size. -/
theorem Change.Valid.torn_other_iff (hv : ch.Valid s) (h : Inv s)
    (hsb : sb.inodes = Function.update s.superblock.inodes ch.slot ch.inode)
    (htorn : sb.Torn j (flash 0))
    (hflash : ∀ a ≠ 0, a ≠ ch.sector → flash a = s.block.flash a) (hk : k ≠ ch.slot)
    (huse : (s.inode k).inUse ≠ 0) :
    fileIn ((VfsSuperblock.ofMemory (flash 0)).inodes k) flash = s.fileAt k ↔
      48 + 48 * (k : ℕ) ≤ j := by
  have hinode : sb.inodes k = s.inode k := by
    rw [hsb, Function.update_of_ne hk]
    rfl
  constructor
  · intro heq
    by_contra hlt
    exact fileIn_ne_of_lt (htorn.inUse_ne (by omega)) (htorn.le_sizeBytes (by omega))
      (h.slot k) heq
  · intro hle
    rw [torn_file_eq htorn hle (hinode ▸ huse), hinode, hv.fileIn_eq h hk hflash]

/-- A file that is in use after the change is as before or as after it if its inode
    is there up to the size. -/
theorem Change.Valid.torn_used_iff (hv : ch.Valid s) (h : Inv s)
    (hslot : sb.inodes ch.slot = ch.inode) (htorn : sb.Torn j (flash 0))
    (hsector : flash ch.sector = ch.image) (huse : ch.inode.inUse ≠ 0) :
    (fileIn ((VfsSuperblock.ofMemory (flash 0)).inodes ch.slot) flash = s.fileAt ch.slot ∨
      fileIn ((VfsSuperblock.ofMemory (flash 0)).inodes ch.slot) flash = ch.result) ↔
        48 + 48 * (ch.slot : ℕ) ≤ j := by
  constructor
  · intro heq
    by_contra hlt
    have hne := htorn.inUse_ne (i := ch.slot) (by omega)
    have hsize := htorn.le_sizeBytes (i := ch.slot) (by omega)
    exact heq.elim (fileIn_ne_of_lt hne hsize (h.slot ch.slot))
      (fileIn_ne_of_lt hne hsize hv.slotOk)
  · intro hle
    right
    rw [torn_file_eq htorn hle (hslot ▸ huse), hslot]
    exact fileIn_congr fun _ => hsector

/-- A file that is removed by the change is still there, on a sector that is as after
    it, if its inode is there up to the size, and its bytes are those of the sector. -/
theorem Change.Valid.torn_removed_iff (hv : ch.Valid s) (h : Inv s)
    (hslot : sb.inodes ch.slot = ch.inode) (htorn : sb.Torn j (flash 0))
    (hsector : flash ch.sector = ch.image) (hremoved : ch.inode.inUse = 0)
    (hlt : j < 56 + 48 * (ch.slot : ℕ)) :
    fileIn ((VfsSuperblock.ofMemory (flash 0)).inodes ch.slot) flash = s.fileAt ch.slot ↔
      48 + 48 * (ch.slot : ℕ) ≤ j ∧ (s.inode ch.slot).inUse ≠ 0 ∧
        s.content ch.slot = slice ch.image 0 (s.inode ch.slot).sizeBytes.toNat := by
  -- The bytes of `in_use` are beyond the cut, so the file is in use still.
  have hne := htorn.inUse_ne (i := ch.slot) hlt
  -- Up to the size, the inode has what it had before.
  have hfile (hle : 48 + 48 * (ch.slot : ℕ) ≤ j) (huse : (s.inode ch.slot).inUse ≠ 0) :
      fileIn ((VfsSuperblock.ofMemory (flash 0)).inodes ch.slot) flash = s.fileAt ch.slot ↔
        s.content ch.slot = slice ch.image 0 (s.inode ch.slot).sizeBytes.toNat := by
    obtain ⟨hname, hstart, hsize⟩ := htorn.file_eq hle
    have hold : (s.inode ch.slot).startSector.toNat = ch.sector := by
      rw [Change.sector, (hv.kept huse).2]
    rw [hslot] at hname hstart hsize
    rw [fileIn_of_inUse hne, hname, hstart, hsize, (hv.kept huse).1, hv.removed huse hremoved,
      fileAt, fileIn_of_inUse huse, content, hold, ← hsector, eq_comm]
    simp [Change.sector]
  constructor
  · intro heq
    have hle : 48 + 48 * (ch.slot : ℕ) ≤ j := by
      by_contra hlt
      exact fileIn_ne_of_lt hne (htorn.le_sizeBytes (by omega)) (h.slot ch.slot) heq
    have huse : (s.inode ch.slot).inUse ≠ 0 := by
      intro hzero
      rw [fileAt, fileIn_eq_none.2 hzero, fileIn_eq_none] at heq
      exact hne heq
    exact ⟨hle, huse, (hfile hle huse).1 heq⟩
  · rintro ⟨hle, huse, hcontent⟩
    exact (hfile hle huse).2 hcontent

/-- A cut while the superblock is rewritten. -/
theorem Change.Valid.recovered_superblock (hv : ch.Valid s) (h : Inv s)
    (hp : medium.persistent = true) (hm : sb.magic = blockMagic)
    (hsb : sb.inodes = Function.update s.superblock.inodes ch.slot ch.inode)
    (htorn : sb.Torn j (flash 0))
    (hflash : ∀ a ≠ 0, a ≠ ch.sector → flash a = s.block.flash a)
    (hsector : flash ch.sector = ch.image) :
    Recovered s ch.slot ch.result (mount medium flash) ↔ ch.SuperblockSafe s j := by
  rw [Recovered, Change.SuperblockSafe]
  by_cases hj : j < 4
  · -- Without the magic, the file system is formatted.
    rw [if_pos hj]
    have hblank (k : Fin 16) : (mount medium flash).fileAt k = defaultFile k :=
      fileAt_mount_of_blank fun _ => htorn.magic_ne hj
    simp only [hblank]
    exact and_congr_left fun _ => forall₃_congr fun k _ _ => eq_comm
  rw [if_neg hj]
  have hmount (k : Fin 16) : (mount medium flash).fileAt k =
      fileIn ((VfsSuperblock.ofMemory (flash 0)).inodes k) flash :=
    fileAt_mount hp ((htorn.magic_eq (by omega)).trans hm)
  have hslot : sb.inodes ch.slot = ch.inode := by rw [hsb, Function.update_self]
  simp only [hmount]
  refine and_congr (forall₃_congr fun k hk hfile => ?_) ?_
  · exact hv.torn_other_iff h hsb htorn hflash hk fun hzero => hfile (fileIn_eq_none.2 hzero)
  by_cases hremoved : ch.inode.inUse = 0
  · -- That the file is removed takes all of its inode to say.
    rw [if_neg (not_not.2 hremoved), Change.result, fileIn_eq_none.2 hremoved, fileIn_eq_none]
    by_cases hwhole : 56 + 48 * (ch.slot : ℕ) ≤ j
    · simp [htorn.inode_eq hwhole, hslot, hremoved, hwhole]
    · have hlt := Nat.lt_of_not_le hwhole
      have hne := htorn.inUse_ne (i := ch.slot) hlt
      simp only [hne, or_false, hwhole, false_or]
      exact hv.torn_removed_iff h hslot htorn hsector hremoved hlt
  · rw [if_pos hremoved]
    exact hv.torn_used_iff h hslot htorn hsector hremoved

/-- A cut after the change. -/
theorem Change.Valid.recovered_done (hv : ch.Valid s) (h : Inv s)
    (hp : medium.persistent = true) (hm : sb.magic = blockMagic)
    (hsb : sb.inodes = Function.update s.superblock.inodes ch.slot ch.inode)
    (hsuper : ∀ x < 780, flash 0 x = sb.byte x)
    (hflash : ∀ a ≠ 0, a ≠ ch.sector → flash a = s.block.flash a)
    (hsector : flash ch.sector = ch.image) :
    Recovered s ch.slot ch.result (mount medium flash) := by
  have hread := VfsSuperblock.ofMemory_eq hsuper
  have hmount (k : Fin 16) : (mount medium flash).fileAt k = fileIn (sb.inodes k) flash := by
    rw [fileAt_mount hp (hread ▸ hm), hread]
  refine ⟨fun k hk _ => ?_, .inr ?_⟩
  · rw [hmount, hsb, Function.update_of_ne hk]
    exact hv.fileIn_eq h hk hflash
  · rw [hmount, hsb, Function.update_self]
    exact fileIn_congr fun _ => hsector

/-- Mounting the flash as it is. -/
theorem fileAt_mount_self (h : Inv s) (hp : medium.persistent = true) (k : Fin 16) :
    (mount medium s.block.flash).fileAt k = s.fileAt k := by
  have hread := VfsSuperblock.ofMemory_eq h.synced
  rw [fileAt_mount hp (hread ▸ h.magic), hread]
  rfl

theorem Change.run_dataSteps (ch : Change) (c : Cell) :
    run c flash ch.dataSteps = Function.update flash ch.sector ch.image := by
  rw [Change.dataSteps, Change.image]
  cases ch.data with
  | none => rfl
  | some data => exact run_rewrite

theorem Change.length_dataSteps (ch : Change) :
    ch.dataSteps.length = if ch.data = none then 1 else 2 := by
  rw [Change.dataSteps]
  cases ch.data <;> rfl

/-- After a cut during a change, the files are recovered if and only if it is safe. -/
theorem Change.Valid.recovered_iff (hv : ch.Valid s) (h : Inv s) (hp : medium.persistent = true)
    (hm : sb.magic = blockMagic) (hsb : ch.sync = true →
      sb.inodes = Function.update s.superblock.inodes ch.slot ch.inode) (c : Cell) (n j : ℕ) :
    Recovered s ch.slot ch.result (mount medium (cut c s.block.flash (ch.steps sb) n j)) ↔
      ch.Safe s n j := by
  have hne : ch.sector ≠ 0 := startSector_ne_zero_iff.1 hv.startSector_ne
  have hlen := ch.length_dataSteps
  rw [Change.steps, cut_append, Change.Safe, ch.run_dataSteps]
  by_cases h0 : n = 0
  · -- Nothing is done yet.
    have hfirst : cut c s.block.flash ch.dataSteps 0 j = s.block.flash := by
      rw [Change.dataSteps]
      cases ch.data <;> rfl
    rw [if_pos h0, h0, if_pos (by split at hlen <;> omega), hfirst, iff_true]
    exact ⟨fun k _ _ => fileAt_mount_self h hp k, .inl (fileAt_mount_self h hp ch.slot)⟩
  rw [if_neg h0]
  by_cases hdata : n < ch.dataSteps.length
  · -- The data are being programmed.
    rw [if_pos hdata, if_pos hdata]
    cases hd : ch.data with
    | none =>
      rw [hd, if_pos rfl] at hlen
      omega
    | some data =>
      rw [hd, if_neg (by simp)] at hlen
      obtain rfl : n = 1 := by omega
      rw [Change.dataSteps, hd, cut_rewrite_one, Option.getD_some]
      refine hv.recovered_sector h hp ?_ (fun a _ ha => Function.update_of_ne ha _ _)
        (Function.update_self ..) ?_
      · exact Function.update_of_ne (Ne.symm hne) _ _
      · rw [hd]
        exact List.take_prefix _ _
  rw [if_neg hdata, if_neg hdata]
  cases hsync : ch.sync with
  | false =>
    simp only [Bool.false_eq_true, if_false, if_true, iff_true]
    refine hv.recovered_done h hp h.magic ?_ (fun x hx => ?_)
      (fun a _ ha => Function.update_of_ne ha _ _) (Function.update_self ..)
    · rw [(hv.unsynced hsync).1]
      exact (Function.update_eq_self ..).symm
    · rw [cut, Function.update_of_ne (Ne.symm hne)]
      exact h.synced x hx
  | true =>
    simp only [if_true, Bool.true_eq_false, if_false]
    obtain ⟨m, rfl⟩ := Nat.exists_eq_add_of_le (Nat.le_of_not_lt hdata)
    rw [Nat.add_sub_cancel_left]
    obtain rfl | rfl | ⟨l, rfl⟩ := eq_zero_or_one_or_add m
    · rw [cut_rewrite_zero, if_pos (Nat.add_zero _)]
      exact hv.recovered_sector h hp (Function.update_of_ne (Ne.symm hne) _ _)
        (fun a _ ha => Function.update_of_ne ha _ _) (Function.update_self ..)
        (List.prefix_refl _)
    · rw [cut_rewrite_one, if_neg (by omega), if_pos rfl]
      refine hv.recovered_superblock h hp hm (hsb hsync) (fun x hx => ?_) (fun a h0 ha => ?_) ?_
      · rw [Function.update_self, VfsSuperblock.written_take sb j hx]
      · rw [Function.update_of_ne h0, Function.update_of_ne ha]
      · rw [Function.update_of_ne hne, Function.update_self]
    · rw [cut_rewrite_two (by omega), if_neg (by omega), if_neg (by omega), iff_true]
      refine hv.recovered_done h hp hm (hsb hsync) (fun x hx => ?_) (fun a h0 ha => ?_) ?_
      · rw [Function.update_self]
        exact VfsSuperblock.getD_bytes sb hx _
      · rw [Function.update_of_ne h0, Function.update_of_ne ha]
      · rw [Function.update_of_ne hne, Function.update_self]

end

end Vfs

end SliverOS
