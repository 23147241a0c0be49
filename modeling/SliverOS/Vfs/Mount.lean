import SliverOS.Vfs.Table

/-!
# Mounting any sector

What `vfs_init` does with any content of the first sector. Whenever the superblock is
written, its CRC-32 is written with it, but when it is read only its magic is looked
at: a superblock with the magic and another CRC-32 is mounted as it is
(`mount_of_magic`), and all other sectors are formatted (`reformatted_of_magic_ne`).
So only intact superblocks are mounted if and only if the CRC-32 is right whenever the
magic is (`acceptsIntact_iff`).
-/

namespace SliverOS

open Bytes Flash

namespace Vfs

/-- The first sector as `vfs_init` finds it: the flash of a simulation is wiped. -/
def foundSector (medium : Medium) (flash : Image) : Memory :=
  if medium.persistent then flash 0 else blank

/-- A sector has a superblock with its magic and its CRC-32. -/
structure Intact (b : VfsBlock) (sector : Memory) : Prop where
  magic : readU32 sector 0 = blockMagic
  crc : readU32 sector 776 = (b.vfsBlockCalcCrc32 (slice sector 0 776)).1

/-- A file system with the two default files, on a flash that was just formatted. -/
structure Reformatted (s : Vfs) : Prop where
  inodes : s.superblock.inodes = defaultInodes
  fileCount : s.superblock.fileCount = 2
  stored : slice (s.block.flash 0) 0 VfsSuperblock.size = s.superblock.bytes
  intact : Intact s.block (s.block.flash 0)
  macroText : s.block.flash 1 = written defaultMacro
  log : s.block.flash 2 = blank

/-- An intact superblock is mounted, and everything else is formatted. -/
def AcceptsIntact (medium : Medium) (flash : Image) : Prop :=
  Intact (mount medium flash).block (foundSector medium flash) ∧
      (mount medium flash).superblock = .ofMemory (foundSector medium flash) ∨
    ¬Intact (mount medium flash).block (foundSector medium flash) ∧
      Reformatted (mount medium flash)

variable {s : Vfs} {medium : Medium} {flash : Image}

/-! ## What is written -/

/-- The superblock of a mounted file system is intact on the first sector. -/
theorem intact_of_inv (h : Inv s) (hsum : Summed s) : Intact s.block (s.block.flash 0) := by
  have hread := VfsSuperblock.ofMemory_eq h.synced
  have hsummed : slice (s.block.flash 0) 0 776 = s.superblock.summed := by
    rw [VfsSuperblock.summed, ← h.stored, take_slice]
    rfl
  refine ⟨(congrArg VfsSuperblock.magic hread).trans h.magic, ?_⟩
  rw [hsummed, ← hsum.crc]
  exact congrArg VfsSuperblock.crc32 hread

/-! ## What is read -/

/-- A sector with the magic is mounted as it is. -/
theorem mount_of_magic (hm : readU32 (foundSector medium flash) 0 = blockMagic) :
    (mount medium flash).superblock = .ofMemory (foundSector medium flash) ∧
      (mount medium flash).block.flash 0 = foundSector medium flash ∧
      (mount medium flash).block.TableOk := by
  have hp : medium.persistent = true := by
    by_contra hp
    rw [foundSector, if_neg hp] at hm
    exact absurd hm (by decide +kernel)
  rw [foundSector, if_pos hp] at hm ⊢
  obtain ⟨b, hinit, -, -, -, hflash, heq⟩ := vfsInit_eq (s := powerOn medium flash []) rfl
  have htable : (powerOn medium flash []).block.vfsBlockInit.2.TableOk :=
    VfsBlock.TableOk.vfsBlockInit fun hready => by cases hready
  rw [hinit] at htable
  have hflash : b.flash = flash := hflash.trans (if_pos hp)
  have hmagic : ¬(VfsSuperblock.ofMemory (b.flash 0)).magic ≠ blockMagic := by
    rw [hflash]
    exact not_not.2 hm
  rw [mount, heq, if_neg hmagic, hflash]
  exact ⟨rfl, rfl, htable⟩

/-- Any other sector is formatted. -/
theorem reformatted_of_magic_ne (hm : readU32 (foundSector medium flash) 0 ≠ blockMagic) :
    Reformatted (mount medium flash) := by
  have hblank : (powerOn medium flash []).block.medium.persistent = true →
      (VfsSuperblock.ofMemory ((powerOn medium flash []).block.flash 0)).magic ≠ blockMagic := by
    intro hp
    rw [foundSector, if_pos (show medium.persistent = true from hp)] at hm
    exact hm
  have hinv : Inv (mount medium flash) := inv_vfsInit_of_blank rfl hblank
  have hsum : Summed (mount medium flash) :=
    summed_vfsInit rfl (fun hready => by cases hready) fun hp hm' => absurd hm' (hblank hp)
  obtain ⟨b, sb, -, -, hinodes, heq⟩ := vfsInit_formatted (s := powerOn medium flash []) rfl hblank
  have hdefault : (mount medium flash).superblock.inodes = defaultInodes := by
    rw [mount, heq]
    exact hinodes
  have hflash : (mount medium flash).block.flash =
      run b.medium.cell b.flash (formatSteps ++ rewrite 0 sb.bytes) := by
    rw [mount, heq]
    rfl
  refine ⟨hdefault, ?_, hinv.stored, intact_of_inv hinv hsum, ?_, ?_⟩
  · rw [hsum.fileCount, hdefault]
    decide +kernel
  · rw [hflash, formatSteps, run_append, run_append, run_rewrite, run_rewrite,
      Function.update_of_ne (by decide), run_of_ne (by simp [Step.sector]), Function.update_self]
  · rw [hflash, formatSteps, run_append, run_append, run_rewrite, Function.update_of_ne (by decide),
      run_cons, run_nil, Step.apply, Function.update_self]

/-- Only intact superblocks are mounted if and only if the CRC-32 of the sector is
    right whenever its magic is. -/
theorem acceptsIntact_iff (medium : Medium) (flash : Image) : AcceptsIntact medium flash ↔
    (readU32 (foundSector medium flash) 0 = blockMagic →
      readU32 (foundSector medium flash) 776 = ((mount medium flash).block.vfsBlockCalcCrc32
        (slice (foundSector medium flash) 0 776)).1) := by
  by_cases hm : readU32 (foundSector medium flash) 0 = blockMagic
  · obtain ⟨hmounted, hflash, -⟩ := mount_of_magic hm
    constructor
    · rintro (⟨hintact, -⟩ | ⟨-, hformatted⟩)
      · exact fun _ => hintact.crc
      · -- A flash that was formatted would have another first sector.
        have hintact := hformatted.intact
        rw [hflash] at hintact
        exact fun _ => hintact.crc
    · exact fun hcrc => .inl ⟨⟨hm, hcrc hm⟩, hmounted⟩
  · exact iff_of_true (.inr ⟨fun hintact => hm hintact.magic, reformatted_of_magic_ne hm⟩)
      fun hm' => absurd hm' hm

/-- A formatted flash with a bit of the CRC-32 of its superblock flipped. -/
def bitRotted : Image := Function.update formatted.block.flash 0
  (blit (formatted.block.flash 0) 776 [formatted.block.flash 0 776 ^^^ 1])

/-- It is mounted as it is. -/
theorem bitRotted_mounted : ¬AcceptsIntact .osfs bitRotted := by
  have hreach : Reachable .bits32 formatted := reachable_formatted
  have hsum := hreach.summed
  have hformatted := intact_of_inv hreach.inv hsum
  have hsector : foundSector .osfs bitRotted =
      blit (formatted.block.flash 0) 776 [formatted.block.flash 0 776 ^^^ 1] := by
    rw [foundSector, if_pos (show Medium.osfs.persistent = true from rfl), bitRotted,
      Function.update_self]
  have hbefore (a n : ℕ) (ha : a + n ≤ 776) :
      slice (foundSector .osfs bitRotted) a n = slice (formatted.block.flash 0) a n := by
    rw [hsector, slice_blit_of_apart (.inr ha)]
  have hm : readU32 (foundSector .osfs bitRotted) 0 = blockMagic := by
    rw [readU32, hbefore 0 4 (by omega)]
    exact hformatted.magic
  obtain ⟨-, hflash, htable⟩ := mount_of_magic hm
  -- The CRC-32 is that of the same bytes, but it is not the one that is stored.
  have hbad : ¬Intact (mount .osfs bitRotted).block (foundSector .osfs bitRotted) := by
    intro hintact
    have hcrc := hintact.crc
    rw [hbefore 0 776 (by omega), htable.crc_eq hsum.table, ← hformatted.crc] at hcrc
    have hfirst := congrArg (List.getD · 0 0) (slice_eq_of_readU32 hcrc)
    simp only [getD_slice (show 0 < 4 by omega), hsector] at hfirst
    have hbit : formatted.block.flash 0 776 ^^^ 1 = formatted.block.flash 0 776 := by
      rwa [Nat.add_zero, blit, if_pos ⟨Nat.le_refl _, Nat.lt_succ_self _⟩, Nat.sub_self] at hfirst
    have hone := congrArg (formatted.block.flash 0 776 ^^^ ·) hbit
    simp only [← UInt8.xor_assoc, UInt8.xor_self, UInt8.zero_xor] at hone
    exact absurd hone (by decide)
  rintro (⟨hintact, -⟩ | ⟨-, hreformatted⟩)
  · exact hbad hintact
  · have hintact := hreformatted.intact
    rw [hflash] at hintact
    exact hbad hintact

end Vfs

end SliverOS
