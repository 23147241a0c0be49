import SliverOS.Streams.Slices
import SliverOS.Vfs.Access
import SliverOS.Vfs.Log

/-!
# Reading a file

Successive `vfs_read`s through one descriptor. Each of them gives what comes next in the file, so
that the file is cut into slices of the lengths asked for (`reads_eq`).

A descriptor starts at the start of the file, or at its end if it was opened with `VFS_O_APPEND`,
and then there is nothing to read (`vfsOpen_start`).

* `faithful_reads`: what is read through a descriptor from where it was opened.
-/

namespace SliverOS

open Bytes Streams

namespace Vfs

variable {w : SizeT} {s t : Vfs} {d : Fin 8} {path : List UInt8} {flags : UInt32} {sizes : List ℕ}

/-- Reads of some sizes through a descriptor, one after the other. -/
def reads (w : SizeT) (s : Vfs) (d : Fin 8) : List ℕ → List (Except MkStatus (List UInt8))
  | [] => []
  | n :: sizes => (s.vfsRead w (d : ℕ) n).1 :: reads w (s.vfsRead w (d : ℕ) n).2 d sizes

/-- What is read are consecutive slices of some bytes, from the first one on: as long as the bytes
    last, each of the length asked for, and empty after their end. -/
def Faithful (bytes : List UInt8) (sizes : List ℕ) (results : List (Except MkStatus (List UInt8))) :
    Prop :=
  ∃ slices : List (List UInt8), results = slices.map .ok ∧ slices.length = sizes.length ∧
    slices.flatten = bytes.take (min bytes.length sizes.sum) ∧
    ∀ k n, sizes[k]? = some n → ∃ slice, slices[k]? = some slice ∧ slice.length ≤ n ∧
      (slice.length = n ∨ (slices.take (k + 1)).flatten = bytes) ∧
      ((slices.take k).flatten = bytes → slice = [])

theorem faithful_splitLengths (bytes : List UInt8) (sizes : List ℕ) :
    Faithful bytes sizes ((sizes.splitLengths bytes).map .ok) := by
  refine ⟨sizes.splitLengths bytes, rfl, List.length_splitLengths .., ?_, fun k n hk => ?_⟩
  · rw [flatten_splitLengths_eq_take, min_comm, ← List.take_eq_take_min]
  · obtain ⟨slice, hslice, hle, hor⟩ := length_slice_or bytes hk
    refine ⟨slice, hslice, hle, hor, fun hend => ?_⟩
    exact Option.some.inj (hslice.symm.trans (slice_eq_nil hk hend))

/-! ## Reading on -/

/-- The bytes of the file from the position of a descriptor on. -/
def rest (s : Vfs) (d : Fin 8) : List UInt8 := (s.content (s.file d)).drop (s.cursor d)

theorem length_rest (s : Vfs) (d : Fin 8) :
    (s.rest d).length = (s.inode (s.file d)).sizeBytes.toNat - s.cursor d := by
  rw [rest, List.length_drop, length_content]

/-- After a read, the descriptor can be read on. -/
theorem Readable.after (h : Readable s d) {n : ℕ} (hn : NoWrap w s d n) :
    Readable (s.vfsRead w (d : ℕ) n).2 d ∧
      (s.vfsRead w (d : ℕ) n).2.rest d = (s.rest d).drop n ∧
      (n < (s.rest d).length → (s.vfsRead w (d : ℕ) n).2.cursor d = s.cursor d + n) := by
  obtain ⟨cursor, readBuf, heq, hcursor⟩ := h.snd_vfsRead w n
  have hdesc : (s.vfsRead w (d : ℕ) n).2.openFiles d = { s.openFiles d with cursor } := by
    rw [heq]
    exact Function.update_self ..
  have hfile : (s.vfsRead w (d : ℕ) n).2.file d = s.file d := by rw [file, hdesc, file]
  have hpos : (s.vfsRead w (d : ℕ) n).2.cursor d =
      s.cursor d + min n ((s.inode (s.file d)).sizeBytes.toNat - s.cursor d) := by
    rw [Vfs.cursor, hdesc]
    exact hcursor hn
  have hinode (i : Fin 16) : (s.vfsRead w (d : ℕ) n).2.inode i = s.inode i := by
    rw [heq]
    rfl
  have hcontent (i : Fin 16) : (s.vfsRead w (d : ℕ) n).2.content i = s.content i := by
    rw [heq]
    rfl
  refine ⟨⟨?_, ?_, ?_, ?_, ?_⟩, ?_, fun hlt => ?_⟩
  · rw [heq]
    exact h.ready
  · rw [heq]
    exact h.up
  · rw [hdesc]
    exact h.isOpen
  · rw [hfile, hinode]
    exact h.startSector
  · rw [hfile, hinode]
    exact h.sizeBytes
  · rw [rest, hfile, hcontent, hpos, drop_content_cursor]
    rfl
  · rw [length_rest] at hlt
    rw [hpos, Nat.min_eq_left hlt.le]

/-- The file is cut into slices. -/
theorem reads_eq (h : Readable s d) (hfits : ∀ before n, before ++ [n] <+: sizes →
      before.sum < (s.rest d).length → s.cursor d + before.sum + n < w.size) :
    s.reads w d sizes = (sizes.splitLengths (s.rest d)).map .ok := by
  induction sizes generalizing s with
  | nil => rfl
  | cons n sizes ih =>
    have hn : NoWrap w s d n := by
      intro hlt
      refine SizeT.wrap_of_lt (hfits [] n (by simp) ?_)
      rw [List.sum_nil, length_rest]
      omega
    obtain ⟨hread, hrest, hcursor⟩ := h.after hn
    rw [reads, h.fst_vfsRead hn, List.splitLengths_cons, List.map_cons, ih hread ?_, hrest]
    · rfl
    · intro before m hpre hlt
      rw [hrest, List.length_drop] at hlt
      have hmore := hfits (n :: before) m (List.cons_prefix_cons.2 ⟨rfl, hpre⟩)
      rw [List.sum_cons] at hmore
      rw [hcursor (by omega)]
      have := hmore (by omega)
      omega

/-! ## Opening -/

theorem ready_targetInode (s : Vfs) (name : List UInt8) (flags : UInt32) :
    (s.targetInode name flags).2.ready = s.ready :=
  targetInode_rule (P := fun t => t.ready = s.ready) rfl name flags
    fun i _ => ready_create s i name flags

/-- Truncation leaves nothing in the file. -/
theorem length_content_truncate (s : Vfs) (i : Fin 16) (d : Fin 8) :
    ((s.truncate i d).content i).length = 0 := by
  have hinode : (s.truncate i d).inode i = { s.inode i with sizeBytes := 0 } := by
    rw [inode, truncate, inodes_vfsSyncSuperblock]
    exact Function.update_self ..
  rw [length_content, hinode]
  rfl

/-- A descriptor starts at the start of its file, or at the end. -/
theorem vfsOpen_start (h : s.vfsOpen path flags = (.ok d, t)) :
    t.ready = true ∧ (t.openFiles d).isOpen = true ∧
      t.cursor d = if flags &&& oAppend ≠ 0 then (t.content (t.file d)).length else 0 := by
  by_cases hready : s.ready = true
  swap
  · obtain ⟨status, heq⟩ := vfsOpen_of_not_ready hready path flags
    rw [heq] at h
    cases h
  have htargetReady := ready_targetInode s (fname path) flags
  rcases vfsOpen_outcome hready path flags with ⟨status, heq⟩ | ⟨i, u, e, htarget, -, heq⟩
  · rw [heq] at h
    cases h
  rw [htarget, hready] at htargetReady
  rw [heq] at h
  obtain ⟨he, rfl⟩ := Prod.mk.inj h
  obtain rfl := Except.ok.inj he
  have hdesc : (u.opened i e flags).openFiles e =
      ⟨i, if flags &&& oAppend ≠ 0 then (u.inode i).sizeBytes else 0, flags, true⟩ :=
    Function.update_self ..
  by_cases htrunc : flags &&& oTrunc ≠ 0
  · -- The end of a file that is empty is its start.
    rw [if_pos htrunc, ready_truncate, file, cursor, openFiles_truncate, Function.update_self,
      hdesc, length_content_truncate]
    exact ⟨htargetReady, rfl, (ite_self 0).symm⟩
  · rw [if_neg htrunc, file, cursor, hdesc, length_content]
    refine ⟨htargetReady, rfl, ?_⟩
    split_ifs
    · rfl
    · rfl

/-- What there is to read through a descriptor that was opened with some flags. -/
def available (t : Vfs) (d : Fin 8) (flags : UInt32) : List UInt8 :=
  if flags &&& oAppend ≠ 0 then [] else t.content (t.file d)

theorem rest_vfsOpen (h : s.vfsOpen path flags = (.ok d, t)) : t.rest d = t.available d flags := by
  rw [rest, (vfsOpen_start h).2.2, available]
  split_ifs
  · exact List.drop_length
  · rfl

/-- What is read through a descriptor, if it is not closed and nothing is written: the content of
    the file, or nothing if it was opened at the end. -/
theorem faithful_reads (h : s.vfsOpen path flags = (.ok d, t)) (hup : t.block.Up)
    (hsector : (t.inode (t.file d)).startSector < 19)
    (hsize : (t.content (t.file d)).length ≤ 4096)
    (hfits : ∀ before n, before ++ [n] <+: sizes → before.sum < (t.available d flags).length →
      before.sum + n < w.size) :
    Faithful (t.available d flags) sizes (t.reads w d sizes) := by
  obtain ⟨hready, hopen, hstart⟩ := vfsOpen_start h
  rw [length_content] at hsize
  have hrest := rest_vfsOpen h
  rw [← hrest, reads_eq ⟨hready, hup, hopen, hsector, hsize⟩]
  · exact faithful_splitLengths _ _
  · intro before n hpre hlt
    have hn := hfits before n hpre (hrest ▸ hlt)
    -- At the end of the file, there would be nothing to read.
    have hzero : t.cursor d = 0 := by
      rw [hstart]
      refine if_neg fun happend => ?_
      rw [hrest, available, if_pos happend] at hlt
      exact absurd hlt (Nat.not_lt_zero _)
    rwa [hzero, Nat.zero_add]

/-- The default macro file opened on a file system just formatted. -/
def macroOpenedWith (flags : UInt32) : Vfs := (formatted.vfsOpen (ascii "macro.txt") flags).2

theorem vfsOpen_macroOpenedWith {flags : UInt32}
    (h : (formatted.vfsOpen (ascii "macro.txt") flags).1 = .ok 0) :
    formatted.vfsOpen (ascii "macro.txt") flags = (.ok 0, macroOpenedWith flags) := by
  rw [macroOpenedWith, ← h]

theorem up_macroOpenedWith (flags : UInt32) : (macroOpenedWith flags).block.Up := by
  have hinv : Inv formatted := (reachable_formatted (w := .bits32)).inv
  rw [macroOpenedWith]
  exact (hinv.vfsOpen _ flags).up

/-- The macro is read in chunks of 64 bytes, the second of them empty. -/
theorem faithful_reads_macro : Faithful ((macroOpenedWith oRdonly).available 0 oRdonly) [64, 64]
    ((macroOpenedWith oRdonly).reads .bits32 0 [64, 64]) := by
  have hlen : ((macroOpenedWith oRdonly).available 0 oRdonly).length = 41 := by decide +kernel
  refine faithful_reads (vfsOpen_macroOpenedWith (by decide +kernel)) (up_macroOpenedWith _)
    (by decide +kernel) (by decide +kernel) fun before n hpre hlt => ?_
  have hn : n ∈ [64, 64] := hpre.subset (by simp)
  rw [hlen] at hlt
  simp only [List.mem_cons, List.not_mem_nil, or_false, or_self] at hn
  rw [hn, SizeT.size]
  omega

/-- Through a descriptor that was opened at the end, nothing is read of the macro. -/
theorem not_faithful_append : (formatted.vfsOpen (ascii "macro.txt") oAppend).1 = .ok 0 ∧
    ¬Faithful ((macroOpenedWith oAppend).content ((macroOpenedWith oAppend).file 0)) [1]
      ((macroOpenedWith oAppend).reads .bits32 0 [1]) := by
  refine ⟨by decide +kernel, ?_⟩
  rintro ⟨slices, hslices, -, hflatten, -⟩
  have hread : (macroOpenedWith oAppend).reads .bits32 0 [1] = [[]].map .ok := by decide +kernel
  obtain rfl := List.map_injective_iff.2 (fun _ _ heq => Except.ok.inj heq)
    (hslices.symm.trans hread)
  revert hflatten
  decide +kernel

end Vfs

end SliverOS
