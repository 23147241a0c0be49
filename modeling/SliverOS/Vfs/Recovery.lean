import SliverOS.Vfs.Crash

/-!
# Power cuts during a call

The file a call is about (`target?`), and what is left of the files when the
power is cut during the call and the file system is mounted again (`Recovers`).

A call makes one change of a file, or none; only the creation of a file that is
opened truncated rewrites it twice, to the same effect. So no file is lost if
and only if the cut is safe for the change (`SafeCut`, `recovers_iff`).
-/

namespace SliverOS

open Bytes Flash

namespace Vfs

variable {w : SizeT} {s t : Vfs} {i : Fin 16} {d : Fin 8} {c : Call} {n j : ℕ}

/-- The slot of the file a call is about. -/
def target? (s : Vfs) : Call → Option (Fin 16)
  | .vfsOpen path flags =>
    match s.findInode (fname path) with
    | some i => some i
    | none => if flags &&& oCreat = 0 then none else s.freeInode
  | .vfsWrite fd _ => (fd? fd).map s.file
  | .vfsDelete path => s.findInode (fname path)
  | _ => none

/-- When the power is cut during a call and the file system mounted again, every
    file the call is not about is as before it, and the file it is about is as
    before or as after it. -/
def Recovers (w : SizeT) (s : Vfs) (c : Call) (n j : ℕ) : Prop :=
  (∀ k, s.target? c ≠ some k → s.fileAt k ≠ none →
    (mount s.block.medium (s.interrupted w c n j)).fileAt k = s.fileAt k) ∧
  ∀ k, s.target? c = some k →
    (mount s.block.medium (s.interrupted w c n j)).fileAt k = s.fileAt k ∨
      (mount s.block.medium (s.interrupted w c n j)).fileAt k = (s.exec w c).fileAt k

/-! ## The changes that the calls make -/

/-- The creation of a file, by `vfs_open`. -/
def creation (s : Vfs) (i : Fin 16) (name : List UInt8) (flags : UInt32) : Change :=
  ⟨i, s.newInode i name flags, none, true⟩

/-- The truncation of a file, by `vfs_open`. -/
def truncation (s : Vfs) (i : Fin 16) : Change :=
  ⟨i, { s.inode i with sizeBytes := 0 }, none, true⟩

/-- The deletion of a file, by `vfs_delete`. -/
def deletion (s : Vfs) (i : Fin 16) : Change :=
  ⟨i, { s.inode i with inUse := 0 }, none, true⟩

/-- A write goes beyond the end of the file. -/
def Grows (s : Vfs) (d : Fin 8) (size : ℕ) : Prop :=
  (s.inode (s.file d)).sizeBytes < (s.advanced d size).cursor

instance (size : ℕ) : Decidable (s.Grows d size) :=
  inferInstanceAs (Decidable (_ < _))

/-- A write to a file, by `vfs_write`. -/
def writing (w : SizeT) (s : Vfs) (d : Fin 8) (buffer : List UInt8) : Change where
  slot := s.file d
  inode :=
    if s.Grows d buffer.length then
      { s.inode (s.file d) with sizeBytes := (s.advanced d buffer.length).cursor }
    else s.inode (s.file d)
  data := some (s.writeData w d buffer)
  sync := s.Grows d buffer.length

/-- `vfs_open` truncates the file that it opens. -/
def Truncates (s : Vfs) (flags : UInt32) : Prop := flags &&& oTrunc ≠ 0 ∧ s.freeFd ≠ none

instance (flags : UInt32) : Decidable (s.Truncates flags) :=
  inferInstanceAs (Decidable (_ ∧ _))

/-- The power cut after `n` steps of a call, and `j` bytes of the next one, is
    safe for the change that the call makes. A file created and truncated is
    changed by three steps, and again by three steps. -/
def SafeCut (w : SizeT) (s : Vfs) (c : Call) (n j : ℕ) : Prop :=
  match c with
  | .vfsOpen path flags =>
    match s.findInode (fname path), s.freeInode with
    | some i, _ => s.Truncates flags → (s.truncation i).Safe s n j
    | none, some i => flags &&& oCreat ≠ 0 → (s.creation i (fname path) flags).Safe s
        (if s.Truncates flags ∧ 3 ≤ n then n - 3 else n) j
    | none, none => True
  | .vfsWrite fd buffer =>
    ∀ d : Fin 8, fd = (d : ℕ) → Accepts w s d buffer → (s.writing w d buffer).Safe s n j
  | .vfsDelete path => ∀ i, s.findInode (fname path) = some i → (s.deletion i).Safe s n j
  | _ => True

theorem valid_creation (hfree : (s.inode i).inUse = 0) (name : List UInt8) (flags : UInt32) :
    (s.creation i name flags).Valid s where
  slotOk := slotOk_newInode s i name flags
  startSector_ne :=
    (slotOk_newInode s i name flags).startSector_ne (show (1 : UInt32) ≠ 0 by decide)
  kept huse := absurd hfree huse
  removed huse := absurd hfree huse
  resized _ _ huse := absurd hfree huse
  unsynced hsync := by cases hsync

theorem valid_truncation (h : Inv s) (huse : (s.inode i).inUse ≠ 0) :
    (s.truncation i).Valid s where
  slotOk := (h.slot i).setSize (Nat.zero_le _)
  startSector_ne := (h.slot i).startSector_ne huse
  kept _ := ⟨rfl, rfl⟩
  removed _ hremoved := absurd hremoved huse
  resized _ _ _ _ := rfl
  unsynced hsync := by cases hsync

theorem valid_deletion (h : Inv s) (huse : (s.inode i).inUse ≠ 0) : (s.deletion i).Valid s where
  slotOk := by
    refine ⟨?_, (h.slot i).sizeBytes, .inl rfl⟩
    exact (h.slot i).place.imp_left fun hz => ⟨hz.1, rfl⟩
  startSector_ne := (h.slot i).startSector_ne huse
  kept _ := ⟨rfl, rfl⟩
  removed _ _ := rfl
  resized _ hne := absurd rfl hne
  unsynced hsync := by cases hsync

theorem valid_writing {buffer : List UInt8} (h : Inv s) (ha : Accepts w s d buffer) :
    (s.writing w d buffer).Valid s := by
  have hstart := (h.desc d ha.isOpen).1
  have hcursor : (s.advanced d buffer.length).cursor.toNat =
      w.wrap ((s.openFiles d).cursor.toNat + buffer.length) := toNat_cursor ha.fits
  -- The superblock is only written when the file grows.
  by_cases hgrows : s.Grows d buffer.length
  · have hinode : (s.writing w d buffer).inode = { s.inode (s.file d) with
        sizeBytes := (s.advanced d buffer.length).cursor } := if_pos hgrows
    have hsync : (s.writing w d buffer).sync = true := decide_eq_true hgrows
    refine ⟨?_, ?_, ?_, ?_, ?_, ?_⟩ <;> simp only [hinode, hsync]
    · exact (h.slot _).setSize (hcursor.trans_le ha.fits)
    · exact hstart
    · exact fun _ => ⟨rfl, rfl⟩
    · exact fun huse hremoved => absurd hremoved huse
    · intro _ _ _ heq
      have hlt : (s.inode (s.file d)).sizeBytes < (s.inode (s.file d)).sizeBytes :=
        lt_of_lt_of_eq hgrows heq
      exact absurd hlt (UInt32.lt_irrefl _)
    · exact fun hno => by cases hno
  · have hinode : (s.writing w d buffer).inode = s.inode (s.file d) := if_neg hgrows
    have hsync : (s.writing w d buffer).sync = false := decide_eq_false hgrows
    refine ⟨?_, ?_, ?_, ?_, ?_, ?_⟩ <;> simp only [hinode, hsync]
    · exact h.slot _
    · exact hstart
    · exact fun _ => ⟨rfl, rfl⟩
    · exact fun huse hremoved => absurd hremoved huse
    · exact fun hno => by cases hno
    · refine fun _ => ⟨rfl, _, rfl, ?_⟩
      rw [writeData, length_slice, ← hcursor]
      exact UInt32.le_iff_toNat_le.1 (UInt32.not_lt.1 hgrows)

/-! ## What the calls leave behind -/

/-- The file system `t` is `s` after a change, the superblock being `sb`. -/
structure Performs (s t : Vfs) (ch : Change) (sb : VfsSuperblock) : Prop where
  magic : sb.magic = blockMagic
  inodes : ch.sync = true → sb.inodes = Function.update s.superblock.inodes ch.slot ch.inode
  steps : t.block.journal = s.block.journal ++ ch.steps sb
  result : t.fileAt ch.slot = ch.result

/-- A change followed by the rewriting of the superblock. -/
theorem Change.Valid.performs_commit {ch : Change} {sb : VfsSuperblock} (hv : ch.Valid s)
    (hsync : ch.sync = true) (hm : sb.magic = blockMagic)
    (hsb : sb.inodes = Function.update s.superblock.inodes ch.slot ch.inode)
    (ht : t.superblock = sb)
    (hblock : t.block = s.block.performAll (ch.dataSteps ++ rewrite 0 sb.bytes)) :
    Performs s t ch sb where
  magic := hm
  inodes _ := hsb
  steps := by
    rw [hblock, Change.steps, if_pos hsync]
    rfl
  result := by
    have hne := startSector_ne_zero_iff.1 hv.startSector_ne
    have hinode : t.inode ch.slot = ch.inode := by
      simp only [Vfs.inode, ht, hsb, Function.update_self]
    rw [fileAt, hinode, hblock]
    refine fileIn_congr fun _ => ?_
    simp only [VfsBlock.performAll, run_append, run_rewrite, ch.run_dataSteps]
    rw [Function.update_of_ne hne]
    exact Function.update_self ..

/-- What is recovered, by the steps of a call and the file after it. -/
theorem recovers_iff_recovered {steps : List Step} {after : Option File}
    (hsteps : (s.exec w c).block.journal = s.block.journal ++ steps)
    (hafter : (s.exec w c).fileAt i = after) (htarget : s.target? c = some i) :
    Recovers w s c n j ↔ Recovered s i after
      (mount s.block.medium (cut s.block.medium.cell s.block.flash steps n j)) := by
  have heq : s.steps w c = steps := by rw [Vfs.steps, hsteps, List.drop_left]
  rw [Recovers, Recovered, interrupted, heq, htarget, ← hafter]
  refine and_congr (forall_congr' fun k => imp_congr_left ?_) ?_
  · rw [ne_eq, Option.some.injEq, eq_comm]
  · exact ⟨fun hall => hall i rfl, fun hi k hk => Option.some.inj hk ▸ hi⟩

/-- A call that makes a change. -/
theorem Performs.recovers_safe {ch : Change} {sb : VfsSuperblock}
    (hperf : Performs s (s.exec w c) ch sb) (hv : ch.Valid s) (h : Inv s)
    (hp : s.block.medium.persistent = true) (htarget : s.target? c = some ch.slot) :
    Recovers w s c n j ↔ ch.Safe s n j := by
  rw [recovers_iff_recovered hperf.steps hperf.result htarget]
  exact hv.recovered_iff h hp hperf.magic hperf.inodes s.block.medium.cell n j

/-- A call that does nothing to the flash loses nothing. -/
theorem recovers_of_no_steps (h : Inv s) (hp : s.block.medium.persistent = true)
    (hjournal : (s.exec w c).block.journal = s.block.journal) : Recovers w s c n j := by
  have hsteps : s.steps w c = [] := by
    rw [Vfs.steps, hjournal, List.drop_length]
  have hmount (k : Fin 16) :
      (mount s.block.medium (s.interrupted w c n j)).fileAt k = s.fileAt k := by
    rw [interrupted, hsteps]
    exact fileAt_mount_self h hp k
  exact ⟨fun k _ _ => hmount k, fun k _ => .inl (hmount k)⟩

/-! ## The calls -/

/-- `vfs_read` does nothing to the flash. -/
theorem vfsRead_block (h : Inv s) (fd : ℤ) (size : ℕ) :
    (s.vfsRead w fd size).2.block = s.block :=
  vfsRead_rule (P := fun t => t.block = s.block) rfl h w fd size fun _ _ _ _ _ => rfl

theorem vfsClose_block (fd : ℤ) : (s.vfsClose fd).2.block = s.block :=
  vfsClose_rule (P := fun t => t.block = s.block) rfl fd fun _ => rfl

/-- Mounting a file system again does nothing to the flash. -/
theorem vfsInit_journal (h : Inv s) (hp : s.block.medium.persistent = true) :
    s.vfsInit.2.block.journal = s.block.journal := by
  have hread := VfsSuperblock.ofMemory_eq h.synced
  obtain ⟨b, -, -, hjournal, heq⟩ := vfsInit_mounted h.up.faults hp (hread ▸ h.magic)
  rw [heq]
  exact hjournal

theorem recovers_vfsDelete_iff (h : Inv s) (hp : s.block.medium.persistent = true)
    (path : List UInt8) :
    Recovers w s (.vfsDelete path) n j ↔ SafeCut w s (.vfsDelete path) n j := by
  cases hfind : s.findInode (fname path) with
  | none =>
    have hexec : s.exec w (.vfsDelete path) = s := by
      rw [exec, vfsDelete, if_neg (by simp [h.ready]), hfind]
    simp only [SafeCut, hfind]
    exact iff_of_true (recovers_of_no_steps h hp (by rw [hexec])) (by simp)
  | some i =>
    have hv := valid_deletion h (findInode_inUse hfind)
    obtain ⟨sb, hm, hsb, heq⟩ := remove_eq h i
    have hexec : s.exec w (.vfsDelete path) =
        s.commit sb [.erase (s.inode i).startSector.toNat] := by
      rw [exec, vfsDelete, if_neg (by simp [h.ready]), hfind]
      exact heq
    have hperf := hv.performs_commit (t := s.exec w (.vfsDelete path)) rfl hm hsb
      (by rw [hexec]; rfl) (by rw [hexec]; rfl)
    rw [hperf.recovers_safe hv h hp hfind, SafeCut]
    simp [hfind]

/-- An accepted write performs its change. -/
theorem performs_writing {buffer : List UInt8} (h : Inv s) (ha : Accepts w s d buffer) :
    ∃ sb, Performs s (s.exec w (.vfsWrite (d : ℕ) buffer)) (s.writing w d buffer) sb := by
  have hv := valid_writing h ha
  have hsector : (s.writing w d buffer).sector =
      (s.inode (s.openFiles d).inodeIdx).startSector.toNat := by
    simp only [Change.sector, writing]
    split <;> rfl
  have hdata : (s.writing w d buffer).dataSteps =
      rewrite (s.inode (s.openFiles d).inodeIdx).startSector.toNat (s.writeData w d buffer) := by
    rw [← hsector]
    rfl
  have hexec : s.exec w (.vfsWrite (d : ℕ) buffer) =
      (s.rewritten w d buffer).advance d buffer.length := by
    rw [exec, ha.vfsWrite h]
  -- The steps are those of the data, and of the superblock when the file grows.
  by_cases hgrows : s.Grows d buffer.length
  · obtain ⟨sb, hm, hsb, heq⟩ := advance_of_lt (h.rewritten w ha.isOpen buffer).up hgrows
    refine ⟨sb, hv.performs_commit (decide_eq_true hgrows) hm ?_ ?_ ?_⟩
    · rw [hsb]
      simp only [writing, hgrows, if_true]
      rfl
    · rw [hexec, heq]
      rfl
    · rw [hexec, heq, hdata]
      simp only [commit, rewritten, VfsBlock.performAll_performAll, List.nil_append]
  · have hsync : (s.writing w d buffer).sync = false := decide_eq_false hgrows
    have hinode : (s.writing w d buffer).inode = s.inode (s.file d) := if_neg hgrows
    have hadvance := advance_of_le (s := s.rewritten w d buffer) (UInt32.not_lt.1 hgrows)
    rw [hexec, hadvance]
    refine ⟨s.superblock, h.magic, fun hyes => ?_, ?_, ?_⟩
    · rw [hsync] at hyes
      cases hyes
    · rw [Change.steps, hsync, hdata]
      simp [rewritten, VfsBlock.performAll]
    · rw [Change.result, hinode]
      refine fileIn_congr fun _ => ?_
      simp only [rewritten, VfsBlock.performAll, run_rewrite]
      exact Function.update_self ..

theorem recovers_vfsWrite_iff (h : Inv s) (hp : s.block.medium.persistent = true) (fd : ℤ)
    (buffer : List UInt8) :
    Recovers w s (.vfsWrite fd buffer) n j ↔ SafeCut w s (.vfsWrite fd buffer) n j := by
  rcases vfsWrite_cases h w fd buffer with ⟨status, heq⟩ | ⟨d, rfl, ha⟩
  · have hexec : s.exec w (.vfsWrite fd buffer) = s := by rw [exec, heq]
    refine iff_of_true (recovers_of_no_steps h hp (by rw [hexec])) fun d hd ha => ?_
    rw [hd, ha.vfsWrite h] at heq
    cases heq
  · obtain ⟨sb, hperf⟩ := performs_writing h ha
    have htarget : s.target? (.vfsWrite (d : ℕ) buffer) = some (s.file d) := by
      rw [target?, fd?_eq]
      rfl
    rw [hperf.recovers_safe (valid_writing h ha) h hp htarget, SafeCut]
    refine ⟨fun hsafe e he _ => ?_, fun hsafe => hsafe d rfl ha⟩
    obtain rfl : d = e := Fin.ext (Int.ofNat.inj he)
    exact hsafe

/-! ## Opening -/

/-- The creation of a file made twice. -/
theorem recovered_creation_twice {medium : Medium} {sb sb' : VfsSuperblock} {name : List UInt8}
    {flags : UInt32} (h : Inv s) (hp : medium.persistent = true)
    (hfree : (s.inode i).inUse = 0) (hm : sb.magic = blockMagic) (hm' : sb'.magic = blockMagic)
    (hsb : sb.inodes = Function.update s.superblock.inodes i (s.newInode i name flags))
    (hsb' : sb'.inodes = Function.update s.superblock.inodes i (s.newInode i name flags))
    (cell : Cell) (n j : ℕ) :
    Recovered s i (s.creation i name flags).result (mount medium (cut cell s.block.flash
      ((s.creation i name flags).steps sb ++ (s.creation i name flags).steps sb') n j)) ↔
        (s.creation i name flags).Safe s (if 3 ≤ n then n - 3 else n) j := by
  have hv := valid_creation hfree name flags
  generalize hch : s.creation i name flags = ch at hv ⊢
  have hslot : ch.slot = i := hch ▸ rfl
  have hinode : ch.inode = s.newInode i name flags := hch ▸ rfl
  have hsync : ch.sync = true := hch ▸ rfl
  have hdata : ch.dataSteps = [.erase ch.sector] := hch ▸ rfl
  have himage : ch.image = blank := hch ▸ rfl
  have hsteps (sb : VfsSuperblock) : ch.steps sb = .erase ch.sector :: rewrite 0 sb.bytes := by
    rw [Change.steps, if_pos hsync, hdata]
    rfl
  subst hslot
  rw [← hinode] at hsb hsb'
  have hne : ch.sector ≠ 0 := startSector_ne_zero_iff.1 hv.startSector_ne
  rw [cut_append]
  by_cases hn : n < 3
  · rw [if_pos (by rw [hsteps]; exact hn), if_neg (by omega)]
    exact hv.recovered_iff h hp hm (fun _ => hsb) cell n j
  obtain ⟨m, rfl⟩ := Nat.exists_eq_add_of_le (Nat.le_of_not_lt hn)
  rw [if_neg (by rw [hsteps]; exact hn), if_pos (by omega), Nat.add_sub_cancel_left]
  have hsub : 3 + m - (ch.steps sb).length = m := by
    rw [hsteps]
    exact Nat.add_sub_cancel_left 3 m
  -- The flash after the creation, and whatever is done to the sector of the file.
  have hrun : run cell s.block.flash (ch.steps sb) =
      Function.update (Function.update s.block.flash ch.sector blank) 0 (written sb.bytes) := by
    rw [hsteps, run_cons, run_rewrite]
    rfl
  have hdone (f : Image) {sb : VfsSuperblock} (hm : sb.magic = blockMagic)
      (hsb : sb.inodes = Function.update s.superblock.inodes ch.slot ch.inode)
      (hsuper : f 0 = written sb.bytes) (hsector : f ch.sector = blank)
      (hflash : ∀ a ≠ 0, a ≠ ch.sector → f a = s.block.flash a) :
      Recovered s ch.slot ch.result (mount medium f) :=
    hv.recovered_done h hp hm hsb
      (fun x hx => by rw [hsuper]; exact VfsSuperblock.getD_bytes sb hx _) hflash
      (hsector.trans himage.symm)
  rw [hsub, hrun, hsteps, Change.Safe, hsync, hdata, List.length_singleton]
  rcases m with _ | m
  · rw [if_pos rfl, iff_true, cut, Step.interrupt]
    refine hdone _ hm hsb (Function.update_self ..) ?_ fun a h0 ha => ?_
    · exact (Function.update_of_ne hne _ _).trans (Function.update_self ..)
    · exact (Function.update_of_ne h0 _ _).trans (Function.update_of_ne ha _ _)
  obtain rfl | rfl | ⟨l, rfl⟩ := eq_zero_or_one_or_add m
  · have hsafe : ch.SectorSafe s (ch.data.getD []) := fun huse => absurd hfree huse
    rw [if_neg (by omega), if_neg (by simp), if_neg (by simp), if_pos rfl]
    refine iff_of_true ?_ hsafe
    rw [cut, cut_rewrite_zero]
    refine hdone _ hm hsb ?_ (Function.update_self ..) fun a h0 ha => ?_
    · exact (Function.update_of_ne (Ne.symm hne) _ _).trans (Function.update_self ..)
    · rw [Step.apply, Function.update_of_ne ha, Function.update_of_ne h0, Function.update_of_ne ha]
  · rw [if_neg (by omega), if_neg (by simp), if_neg (by simp), if_neg (by simp),
      if_pos rfl, cut, cut_rewrite_one]
    refine hv.recovered_superblock h hp hm' hsb' (fun x hx => ?_) (fun a h0 ha => ?_) ?_
    · rw [Function.update_self, VfsSuperblock.written_take sb' j hx]
    · rw [Function.update_of_ne h0, Step.apply, Function.update_of_ne ha,
        Function.update_of_ne h0, Function.update_of_ne ha]
    · rw [Function.update_of_ne hne, Step.apply, Function.update_self, himage]
  · rw [if_neg (by omega), if_neg (by simp), if_neg (by simp), if_neg (by omega),
      if_neg (by omega), iff_true, cut, cut_rewrite_two (by omega)]
    refine hdone _ hm' hsb' (Function.update_self ..) ?_ fun a h0 ha => ?_
    · exact (Function.update_of_ne hne _ _).trans (Function.update_self ..)
    · rw [Function.update_of_ne h0, Step.apply, Function.update_of_ne ha,
        Function.update_of_ne h0, Function.update_of_ne ha]

theorem vfsOpen_of_target {path : List UInt8} {flags : UInt32} (h : Inv s)
    (htarget : s.targetInode (fname path) flags = (.ok i, t)) :
    (s.vfsOpen path flags).2 = match t.freeFd with
      | none => t
      | some d => if flags &&& oTrunc ≠ 0 then (t.opened i d flags).truncate i d
          else t.opened i d flags := by
  rcases vfsOpen_of_targetInode h.ready htarget with ⟨hfd, heq⟩ | ⟨d, hfd, heq⟩
  · rw [heq, hfd]
  · rw [heq, hfd]

/-- Opening a file that there is. -/
theorem recovers_vfsOpen_found (h : Inv s) (hp : s.block.medium.persistent = true)
    {path : List UInt8} {flags : UInt32} (hfind : s.findInode (fname path) = some i) :
    Recovers w s (.vfsOpen path flags) n j ↔
      (s.Truncates flags → (s.truncation i).Safe s n j) := by
  have huse := findInode_inUse hfind
  have hcode := vfsOpen_of_target h (targetInode_of_found hfind flags)
  cases hfd : s.freeFd with
  | none =>
    rw [hfd] at hcode
    refine iff_of_true (recovers_of_no_steps h hp ?_) fun htrunc => absurd hfd htrunc.2
    rw [exec, hcode]
  | some d =>
    rw [hfd] at hcode
    simp only at hcode
    -- Without truncation, nothing is written.
    by_cases htrunc : flags &&& oTrunc ≠ 0
    · rw [if_pos htrunc] at hcode
      obtain ⟨sb, hm, hsb, heq⟩ := truncate_eq (h.opened huse d flags) i d
      have hv := valid_truncation h huse
      have hperf := hv.performs_commit (t := s.exec w (.vfsOpen path flags)) rfl hm hsb
        (by rw [exec, hcode, heq]; rfl) (by rw [exec, hcode, heq]; rfl)
      rw [hperf.recovers_safe hv h hp (by simp only [target?, hfind]; rfl)]
      exact ⟨fun hsafe _ => hsafe, fun hsafe => hsafe ⟨htrunc, by simp [hfd]⟩⟩
    · rw [if_neg htrunc] at hcode
      refine iff_of_true (recovers_of_no_steps h hp ?_) fun hno => absurd hno.1 htrunc
      rw [exec, hcode]
      rfl

/-! ### Creation -/

section

variable {path : List UInt8} {flags : UInt32}

/-- The steps of the creation of a file. -/
theorem steps_creation (s : Vfs) (i : Fin 16) (name : List UInt8) (flags : UInt32)
    (sb : VfsSuperblock) :
    (s.creation i name flags).steps sb = [.erase ((i : ℕ) + 3)] ++ rewrite 0 sb.bytes := by
  have hsector : (s.creation i name flags).sector = i + 3 := newInode_startSector s i name flags
  have hsync : (s.creation i name flags).sync = true := rfl
  rw [Change.steps, if_pos hsync, ← hsector]
  rfl

/-- The call creates a file in a slot. -/
structure Creates (s : Vfs) (i : Fin 16) (path : List UInt8) (flags : UInt32) : Prop where
  absent : s.findInode (fname path) = none
  free : s.freeInode = some i
  creat : flags &&& oCreat ≠ 0

theorem Creates.target (hc : Creates s i path flags) :
    s.target? (.vfsOpen path flags) = some i := by
  simp only [target?, hc.absent]
  rw [if_neg hc.creat, hc.free]

theorem Creates.vfsOpen_eq (hc : Creates s i path flags) (h : Inv s) :
    (s.vfsOpen path flags).2 = match s.freeFd with
      | none => s.create i (fname path) flags
      | some d =>
        if flags &&& oTrunc ≠ 0 then ((s.create i (fname path) flags).opened i d flags).truncate i d
        else (s.create i (fname path) flags).opened i d flags := by
  rw [vfsOpen_of_target h (targetInode_of_creat hc.absent hc.creat hc.free), freeFd_create]

/-- Opening a file that is created, and not truncated: the creation is all. -/
theorem Creates.recovers_of_not_truncates (hc : Creates s i path flags) (h : Inv s)
    (hp : s.block.medium.persistent = true) (hno : ¬s.Truncates flags) :
    Recovers w s (.vfsOpen path flags) n j ↔
      (s.creation i (fname path) flags).Safe s n j := by
  have hv := valid_creation (freeInode_inUse hc.free) (fname path) flags
  obtain ⟨sb, hm, hsb, heq⟩ := create_eq h.up i (fname path) flags
  have hcode := hc.vfsOpen_eq h
  -- With or without a descriptor, the flash is that after the creation.
  have hexec : (s.exec w (.vfsOpen path flags)).block =
      (s.commit sb [.erase ((i : ℕ) + 3)]).block ∧
      (s.exec w (.vfsOpen path flags)).superblock = sb := by
    rw [exec, hcode]
    cases hfd : s.freeFd with
    | none =>
      rw [heq]
      exact ⟨rfl, rfl⟩
    | some d =>
      have htrunc : ¬flags &&& oTrunc ≠ 0 := fun hyes => hno ⟨hyes, by simp [hfd]⟩
      simp only
      rw [if_neg htrunc, heq]
      exact ⟨rfl, rfl⟩
  have hdata : (s.creation i (fname path) flags).dataSteps = [.erase ((i : ℕ) + 3)] := by
    rw [← newInode_startSector s i (fname path) flags]
    rfl
  have hperf := hv.performs_commit (t := s.exec w (.vfsOpen path flags)) rfl hm hsb hexec.2
    (by rw [hexec.1, hdata]; rfl)
  exact hperf.recovers_safe hv h hp hc.target

/-- Opening a file that is created, and truncated: it is created twice. -/
theorem Creates.recovers_of_truncates (hc : Creates s i path flags) (h : Inv s)
    (hp : s.block.medium.persistent = true) (htrunc : s.Truncates flags) :
    Recovers w s (.vfsOpen path flags) n j ↔
      (s.creation i (fname path) flags).Safe s (if 3 ≤ n then n - 3 else n) j := by
  have hunused := freeInode_inUse hc.free
  obtain ⟨sb, hm, hsb, heq⟩ := create_eq h.up i (fname path) flags
  obtain ⟨d, hfd⟩ := Option.ne_none_iff_exists'.1 htrunc.2
  have hexec : s.exec w (.vfsOpen path flags) =
      ((s.create i (fname path) flags).opened i d flags).truncate i d := by
    rw [exec, hc.vfsOpen_eq h, hfd]
    exact if_pos htrunc.1
  have hcreated : Inv (s.create i (fname path) flags) := h.create i (fname path) flags
  have hnew : ((s.create i (fname path) flags).opened i d flags).inode i =
      s.newInode i (fname path) flags := inode_create s i (fname path) flags
  have huse : ((s.create i (fname path) flags).inode i).inUse ≠ 0 := by
    rw [inode_create]
    exact (show (1 : UInt32) ≠ 0 by decide)
  obtain ⟨sb', hm', hsb', heq'⟩ := truncate_eq (hcreated.opened huse d flags) i d
  -- The inode of a new file is empty already.
  have hinodes' : sb'.inodes =
      Function.update s.superblock.inodes i (s.newInode i (fname path) flags) := by
    have hold : ((s.create i (fname path) flags).opened i d flags).superblock.inodes =
        Function.update s.superblock.inodes i (s.newInode i (fname path) flags) := by
      rw [← hsb, heq]
      rfl
    rw [hsb', hnew, hold, Function.update_idem]
    rfl
  -- The second three steps are the first ones again.
  have hblock : (s.exec w (.vfsOpen path flags)).block = s.block.performAll
      ((s.creation i (fname path) flags).steps sb ++
        (s.creation i (fname path) flags).steps sb') := by
    rw [hexec, heq', hnew, newInode_startSector, steps_creation, steps_creation]
    simp only [commit, opened, heq, VfsBlock.performAll_performAll]
  have hafter : (s.exec w (.vfsOpen path flags)).fileAt i =
      (s.creation i (fname path) flags).result := by
    have hinode : (s.exec w (.vfsOpen path flags)).inode i = s.newInode i (fname path) flags := by
      rw [hexec, heq']
      simp only [inode, commit, hinodes']
      exact Function.update_self ..
    rw [fileAt, hinode]
    refine fileIn_congr fun _ => ?_
    rw [newInode_startSector, hexec, heq', hnew, newInode_startSector]
    simp only [commit, VfsBlock.performAll, run_append, run_rewrite, run_cons, run_nil]
    rw [Function.update_of_ne (by omega)]
    exact Function.update_self ..
  rw [recovers_iff_recovered (by rw [hblock]; rfl) hafter hc.target]
  exact recovered_creation_twice h hp hunused hm hm' hsb hinodes' s.block.medium.cell n j

end

/-- Opening a file that there is not, and that is not created. -/
theorem recovers_vfsOpen_absent (h : Inv s) (hp : s.block.medium.persistent = true)
    {path : List UInt8} {flags : UInt32} (hfind : s.findInode (fname path) = none)
    (hno : flags &&& oCreat = 0 ∨ s.freeInode = none) : Recovers w s (.vfsOpen path flags) n j := by
  obtain ⟨status, htarget⟩ := targetInode_of_absent hfind hno
  refine recovers_of_no_steps h hp ?_
  rw [exec, vfsOpen, if_neg (by simp [h.ready]), htarget]

theorem recovers_vfsOpen_iff (h : Inv s) (hp : s.block.medium.persistent = true)
    (path : List UInt8) (flags : UInt32) :
    Recovers w s (.vfsOpen path flags) n j ↔ SafeCut w s (.vfsOpen path flags) n j := by
  rw [SafeCut]
  cases hfind : s.findInode (fname path) with
  | some i => exact recovers_vfsOpen_found h hp hfind
  | none =>
    cases hfree : s.freeInode with
    | none => exact iff_of_true (recovers_vfsOpen_absent h hp hfind (.inr hfree)) trivial
    | some i =>
      simp only
      by_cases hcreat : flags &&& oCreat = 0
      · exact iff_of_true (recovers_vfsOpen_absent h hp hfind (.inl hcreat))
          fun hyes => absurd hcreat hyes
      · have hc : Creates s i path flags := ⟨hfind, hfree, hcreat⟩
        rw [forall_prop_of_true hcreat]
        by_cases htrunc : s.Truncates flags
        · simpa [htrunc] using hc.recovers_of_truncates h hp htrunc
        · simpa [htrunc] using hc.recovers_of_not_truncates h hp htrunc

/-! ## Runs -/

/-- After any run on a flash that keeps its contents, a power cut during a call
    loses no file if and only if it is safe. -/
theorem recovers_iff (h : Reachable w s) (hp : s.block.medium.persistent = true) (c : Call)
    (n j : ℕ) : Recovers w s c n j ↔ SafeCut w s c n j := by
  cases c with
  | vfsInit => exact iff_of_true (recovers_of_no_steps h.inv hp (vfsInit_journal h.inv hp)) trivial
  | vfsOpen path flags => exact recovers_vfsOpen_iff h.inv hp path flags
  | vfsRead fd size =>
    exact iff_of_true (recovers_of_no_steps h.inv hp (by rw [exec, vfsRead_block h.inv])) trivial
  | vfsWrite fd buffer => exact recovers_vfsWrite_iff h.inv hp fd buffer
  | vfsClose fd =>
    exact iff_of_true (recovers_of_no_steps h.inv hp (by rw [exec, vfsClose_block])) trivial
  | vfsDelete path => exact recovers_vfsDelete_iff h.inv hp path

/-- The power is cut when nothing but the default files is there to lose. -/
theorem recovers_iff_formatted :
    Recovers .bits32 formatted (.vfsOpen (ascii "a.txt") oCreat) 2 0 := by
  refine (recovers_iff reachable_formatted (by decide +kernel) _ 2 0).2 ?_
  have hfind : formatted.findInode (fname (ascii "a.txt")) = none := by decide +kernel
  have hfree : formatted.freeInode = some 2 := by decide +kernel
  have htrunc : ¬formatted.Truncates oCreat := by decide +kernel
  rw [SafeCut, hfind, hfree]
  simp only [htrunc, false_and, if_false]
  intro _
  exact ⟨by decide +kernel, by decide +kernel⟩

/-- A file besides the default ones. -/
def fileCreated : Vfs := formatted.exec .bits32 (.vfsOpen (ascii "a.txt") oCreat)

/-- The power is cut just after the superblock is erased, in the creation of another file. -/
theorem file_lost_after_cut : Reachable .bits32 fileCreated ∧
    ¬Recovers .bits32 fileCreated (.vfsOpen (ascii "b.txt") oCreat) 2 0 := by
  refine ⟨reachable_formatted.call _, fun hrecovers => ?_⟩
  have hfile := hrecovers.1 2 (by decide +kernel) (by decide +kernel)
  revert hfile
  decide +kernel

end Vfs

end SliverOS
