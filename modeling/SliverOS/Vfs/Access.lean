import SliverOS.Vfs.Bounds
import SliverOS.Vfs.Isolation

/-!
# Access modes

A descriptor keeps the flags it was opened with (`Obtained.flags_eq`), and `vfs_write` tests
the bit of `VFS_O_RDONLY` in them. `VFS_O_RDWR` has this bit too: what is opened for reading
and writing is never written. The modes are honoured exactly when the flags are not those of
`VFS_O_RDWR` (`honoursModes_iff`).
-/

namespace SliverOS

theorem SizeT.wrap_le (w : SizeT) (n : ℕ) : w.wrap n ≤ n := by
  cases w with
  | bits32 => exact Nat.mod_le ..
  | bits64 => exact Nat.mod_le ..

namespace Vfs

/-- `VFS_O_RDWR`. -/
def oRdwr : UInt32 := 0x0003

variable {w : SizeT} {s : Vfs} {c : Call} {d e : Fin 8} {flags : UInt32}

/-! ## The bits of the modes -/

theorem and_oRdonly (flags : UInt32) : flags &&& oRdonly = flags &&& oRdwr &&& oRdonly := by
  rw [UInt32.and_assoc]
  rfl

theorem and_oWronly (flags : UInt32) : flags &&& oWronly = flags &&& oRdwr &&& oWronly := by
  rw [UInt32.and_assoc]
  rfl

/-- `VFS_O_RDWR` is made of the other two modes. -/
theorem and_oRdwr_eq_iff (flags : UInt32) :
    flags &&& oRdwr = oRdwr ↔ flags &&& oWronly ≠ 0 ∧ flags &&& oRdonly ≠ 0 := by
  rw [and_oRdonly, and_oWronly]
  have hlt : (flags &&& oRdwr).toNat < 4 := by
    rw [UInt32.toNat_and]
    exact Nat.lt_of_le_of_lt Nat.and_le_right (by decide)
  obtain ⟨n, hn⟩ : ∃ n, flags &&& oRdwr = UInt32.ofNat n ∧ n < 4 :=
    ⟨_, (UInt32.ofNat_toNat).symm, hlt⟩
  obtain ⟨heq, hn⟩ := hn
  rw [heq]
  interval_cases n <;> decide

/-! ## The flags of a descriptor -/

/-- The flags of a descriptor that stays open are those it had. -/
def KeepsFlags (s s' : Vfs) : Prop := ∀ d, (s.openFiles d).isOpen = true →
  (s'.openFiles d).isOpen = true → (s'.openFiles d).flags = (s.openFiles d).flags

theorem keepsFlags_of_eq {s' : Vfs} (h : s'.openFiles = s.openFiles) : KeepsFlags s s' :=
  fun d _ _ => by rw [h]

theorem keepsFlags_update {s' : Vfs} {desc : VfsFileDesc}
    (hfiles : s'.openFiles = Function.update s.openFiles d desc)
    (hdesc : (s.openFiles d).isOpen = true → desc.isOpen = true →
      desc.flags = (s.openFiles d).flags) : KeepsFlags s s' := by
  intro e hbefore hopen
  rw [hfiles] at hopen ⊢
  by_cases he : e = d
  · subst he
    rw [Function.update_self] at hopen ⊢
    exact hdesc hbefore hopen
  · rw [Function.update_of_ne he]

theorem openFiles_advance_eq (s : Vfs) (d : Fin 8) (size : ℕ) :
    (s.advance d size).openFiles = Function.update s.openFiles d (s.advanced d size) := by
  by_cases hlt : (s.inode (s.openFiles d).inodeIdx).sizeBytes < (s.advanced d size).cursor
  · exact (congrArg Vfs.openFiles (if_pos hlt)).trans rfl
  · rw [advance_of_le (UInt32.not_lt.1 hlt)]

/-- No call but a mount changes the flags of a descriptor that stays open. -/
theorem keepsFlags_exec (hready : s.ready = true) (hc : c ≠ .vfsInit) :
    KeepsFlags s (s.exec w c) := by
  cases c with
  | vfsInit => exact absurd rfl hc
  | vfsOpen path flags =>
    rcases vfsOpen_cases s path flags with ⟨_, _, hfiles⟩ | ⟨d, desc, hclosed, _, hfiles⟩
    · exact keepsFlags_of_eq hfiles
    · refine keepsFlags_update hfiles fun hopen => ?_
      rw [hclosed] at hopen
      cases hopen
  | vfsRead fd size =>
    by_cases hcopies : ∃ d : Fin 8, fd = (d : ℕ) ∧ Copies s d
    · obtain ⟨d, rfl, hd⟩ := hcopies
      rw [exec, vfsRead_of_copies hd]
      exact keepsFlags_update rfl fun _ _ => rfl
    · have hno (d : Fin 8) (hd : fd = (d : ℕ)) : ¬Copies s d := fun hc => hcopies ⟨d, hd, hc⟩
      exact keepsFlags_of_eq (vfsRead_of_not_copies hno w size).2.2
  | vfsWrite fd buffer =>
    rcases vfsWrite_refused_or hready w fd buffer with ⟨status, heq⟩ | ⟨d, rfl, ha⟩
    · rw [exec, heq]
      exact keepsFlags_of_eq rfl
    · rw [exec, vfsWrite_of_accepts hready ha]
      dsimp only
      split_ifs
      · exact keepsFlags_of_eq rfl
      · exact keepsFlags_update (openFiles_advance_eq _ d _) fun _ _ => rfl
  | vfsClose fd =>
    exact vfsClose_rule (keepsFlags_of_eq rfl) fd
      fun _ => keepsFlags_update rfl fun _ hopen => by cases hopen
  | vfsDelete path =>
    exact vfsDelete_rule (keepsFlags_of_eq rfl) path fun _ _ => keepsFlags_of_eq rfl

/-- `vfs_open` returns an open descriptor with the flags it is given. -/
theorem vfsOpen_flags {path : List UInt8} (h : (s.vfsOpen path flags).1 = .ok d) :
    ((s.vfsOpen path flags).2.openFiles d).isOpen = true ∧
      ((s.vfsOpen path flags).2.openFiles d).flags = flags := by
  by_cases hready : s.ready = true
  swap
  · obtain ⟨status, heq⟩ := vfsOpen_of_not_ready hready path flags
    rw [heq] at h
    cases h
  rcases vfsOpen_outcome hready path flags with ⟨status, heq⟩ | ⟨i, t, e, -, -, heq⟩
  · rw [heq] at h
    cases h
  · rw [heq] at h ⊢
    obtain rfl := Except.ok.inj h
    have hdesc : (t.opened i e flags).openFiles e = ⟨i, _, flags, true⟩ := Function.update_self ..
    have hopen := congrArg VfsFileDesc.isOpen hdesc
    have hflags := congrArg VfsFileDesc.flags hdesc
    simp only
    split_ifs
    · rw [openFiles_truncate, Function.update_self]
      exact ⟨hopen, hflags⟩
    · exact ⟨hopen, hflags⟩

/-- The states in which a descriptor obtained with some flags is still open, after any calls
    with any failures. -/
inductive Obtained (w : SizeT) (flags : UInt32) (d : Fin 8) : Vfs → Prop
  | opened {s : Vfs} (h : ReachableWithFaults w s) (faults : List Bool) {path : List UInt8}
      (hopen : ((s.withFaults faults).vfsOpen path flags).1 = .ok d) :
      Obtained w flags d ((s.withFaults faults).exec w (.vfsOpen path flags))
  | call {s : Vfs} (h : Obtained w flags d s) (faults : List Bool) {c : Call}
      (hc : c ≠ .vfsInit) (hopen : (((s.withFaults faults).exec w c).openFiles d).isOpen = true) :
      Obtained w flags d ((s.withFaults faults).exec w c)

theorem Obtained.reachable (h : Obtained w flags d s) : ReachableWithFaults w s := by
  induction h with
  | opened h faults _ => exact h.call faults nofun
  | call _ faults hc _ ih => exact ih.call faults hc

/-- The descriptor has the flags it was opened with. -/
theorem Obtained.flags_eq (h : Obtained w flags d s) :
    (s.openFiles d).isOpen = true ∧ (s.openFiles d).flags = flags := by
  induction h with
  | opened _ _ hopen => exact vfsOpen_flags hopen
  | @call s h faults c hc hopen ih =>
    have hready : (s.withFaults faults).ready = true := h.reachable.mounted.ready
    exact ⟨hopen, (keepsFlags_exec hready hc d ih.1 hopen).trans ih.2⟩

/-! ## Writing -/

/-- A descriptor whose flags have the bit of `VFS_O_RDONLY` refuses every write. -/
theorem vfsWrite_of_rdonly (hready : s.ready = true)
    (hflags : (s.openFiles d).flags &&& oRdonly ≠ 0) (w : SizeT) (buffer : List UInt8) :
    s.vfsWrite w (d : ℕ) buffer = (.error .invalidState, s) := by
  rw [vfsWrite, fd?_eq]
  simp only
  rw [if_neg (by simp [hready]), if_pos (.inr hflags)]

/-- Any other descriptor that is open takes what fits in the sector, unless the driver fails. -/
theorem vfsWrite_ne_invalidState (h : Mounted s) (hopen : (s.openFiles d).isOpen = true)
    (hflags : (s.openFiles d).flags &&& oRdonly = 0) (w : SizeT) {buffer : List UInt8}
    (hfits : (s.openFiles d).cursor.toNat + buffer.length ≤ sectorSize) (faults : List Bool) :
    ((s.withFaults faults).vfsWrite w (d : ℕ) buffer).1 ≠ .error .invalidState := by
  have hwrap : w.wrap ((s.openFiles d).cursor.toNat + buffer.length) ≤ sectorSize :=
    Nat.le_trans (w.wrap_le _) hfits
  have ha : Accepts w s d buffer := ⟨hopen, hflags, hwrap⟩
  obtain ⟨b, -, -, heq⟩ := ha.vfsWrite_withFaults h faults
  rw [heq]
  split_ifs <;> nofun

/-! ## The access modes -/

/-- The access modes are honoured: a descriptor for writing does not refuse, for what it is,
    a write that fits in the sector, and one for reading only refuses every write, leaving
    everything as it is; whether the driver fails or not. -/
def HonoursModes (w : SizeT) (s : Vfs) (d : Fin 8) (flags : UInt32) : Prop :=
  (flags &&& oWronly ≠ 0 → ∀ faults buffer,
    (s.openFiles d).cursor.toNat + buffer.length ≤ sectorSize →
      ((s.withFaults faults).vfsWrite w (d : ℕ) buffer).1 ≠ .error .invalidState) ∧
  (flags &&& oRdwr = oRdonly → ∀ faults buffer,
    ∃ status, (s.withFaults faults).vfsWrite w (d : ℕ) buffer =
      (.error status, s.withFaults faults))

/-- The access modes of a descriptor are honoured, at any time while it is open, exactly when
    its flags are not those of `VFS_O_RDWR`. -/
theorem honoursModes_iff (h : Obtained w flags d s) :
    HonoursModes w s d flags ↔ flags &&& oRdwr ≠ oRdwr := by
  obtain ⟨hopen, hflags⟩ := h.flags_eq
  have hm := h.reachable.mounted
  constructor
  · -- Nothing at all fits in the sector, and is refused.
    intro hmodes hrdwr
    obtain ⟨hwronly, hrdonly⟩ := (and_oRdwr_eq_iff flags).1 hrdwr
    have hcursor : (s.openFiles d).cursor.toNat + ([] : List UInt8).length ≤ sectorSize :=
      (hm.desc d hopen).2
    have hrefused := vfsWrite_of_rdonly (s := s.withFaults []) hm.ready (d := d)
      (by rw [← hflags] at hrdonly; exact hrdonly) w []
    exact hmodes.1 hwronly [] [] hcursor (by rw [hrefused])
  · intro hne
    refine ⟨fun hwronly faults buffer hfits => ?_, fun hmode faults buffer => ?_⟩
    · have hrdonly : flags &&& oRdonly = 0 := by
        by_contra hrdonly
        exact hne ((and_oRdwr_eq_iff flags).2 ⟨hwronly, hrdonly⟩)
      exact vfsWrite_ne_invalidState hm hopen (by rw [hflags]; exact hrdonly) w hfits faults
    · have hrdonly : flags &&& oRdonly ≠ 0 := by
        rw [and_oRdonly, hmode]
        decide
      exact ⟨_, vfsWrite_of_rdonly (s := s.withFaults faults) hm.ready
        (by rw [← hflags] at hrdonly; exact hrdonly) w buffer⟩

/-- The default macro file opened with some flags. -/
def macroWith (flags : UInt32) : Vfs :=
  (formatted.withFaults []).exec .bits32 (.vfsOpen (ascii "macro.txt") flags)

theorem obtained_macroWith
    (h : ((formatted.withFaults []).vfsOpen (ascii "macro.txt") flags).1 = .ok 0) :
    Obtained .bits32 flags 0 (macroWith flags) :=
  .opened (.run reachable_formatted) [] h

/-- Opened for writing at its end, it takes what fits. -/
theorem honoursModes_append :
    HonoursModes .bits32 (macroWith (oWronly ||| oAppend)) 0 (oWronly ||| oAppend) :=
  (honoursModes_iff (obtained_macroWith (by decide +kernel))).2 (by decide)

/-- Opened for reading and writing, it refuses a byte. -/
theorem not_honoursModes : Obtained .bits32 oRdwr 0 (macroWith oRdwr) ∧
    ¬HonoursModes .bits32 (macroWith oRdwr) 0 oRdwr := by
  refine ⟨obtained_macroWith (by decide +kernel), fun hmodes => ?_⟩
  exact hmodes.1 (by decide) [] (ascii "s") (by decide +kernel) (by decide +kernel)

end Vfs

end SliverOS
