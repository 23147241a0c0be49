import SliverOS.Vfs.Strings
import SliverOS.Vfs.Atomicity

/-!
# Names of files

A name is stored with `strncpy` of 31 bytes, and compared with `strncmp` of 32 bytes. A
longer name is cut when it is stored (`cString_strncpy`), but not when it is looked for:
no file has it, not even the one just created with it. So in a run that only creates
files with names of at most 31 bytes, all the names differ, and a file is found again by
its name if and only if the name is not longer (`lookup_faithful`).
-/

namespace SliverOS

open Bytes Flash

/-! ## Looking for a name -/

/-- `mk_vfs_stat_t`. -/
structure MkVfsStat where
  size : ℕ
  flags : UInt32
  createdTick : UInt32
  modifiedTick : UInt32

namespace Vfs

/-- `vfs_stat`. -/
def vfsStat (s : Vfs) (path : List UInt8) : Except MkStatus MkVfsStat :=
  if !s.ready then .error .invalidArg
  else match s.findInode (fname path) with
    | none => .error .notFound
    | some i => .ok ⟨(s.inode i).sizeBytes.toNat, (s.inode i).flags, 0, 0⟩

variable {w : SizeT} {s s' : Vfs} {i : Fin 16} {d : Fin 8} {name path : List UInt8}
  {flags : UInt32}

/-- The name of the file of a slot. -/
def nameOf (s : Vfs) (i : Fin 16) : List UInt8 := cString (s.inode i).name.toList

/-- All names end with a zero byte. -/
def Terminated (s : Vfs) : Prop := ∀ i, (s.inode i).name[31] = 0

/-- The slots have the same names, and the same of them are in use. -/
def SameNames (s s' : Vfs) : Prop :=
  ∀ i, (s'.inode i).name = (s.inode i).name ∧ (s'.inode i).inUse = (s.inode i).inUse

theorem strncmpEq_name_iff : strncmpEq (s.inode i).name.toList name maxFilenameLen = true ↔
    s.nameOf i = (cString name).take 32 := by
  have hwhole : (s.inode i).name.toList.take maxFilenameLen = (s.inode i).name.toList :=
    List.take_of_length_le (by rw [Vector.length_toList]; rfl)
  rw [strncmpEq, hwhole, cString_take, beq_iff_eq]
  rfl

theorem of_findInode (h : s.findInode name = some i) :
    (s.inode i).inUse ≠ 0 ∧ s.nameOf i = (cString name).take 32 := by
  have hfound := List.find?_some h
  simp only [decide_eq_true_eq] at hfound
  exact ⟨hfound.1, strncmpEq_name_iff.1 hfound.2⟩

theorem nameOf_ne_of_findInode (h : s.findInode name = none) (huse : (s.inode i).inUse ≠ 0) :
    s.nameOf i ≠ (cString name).take 32 :=
  fun heq => findInode_eq_none_iff.1 h i huse (strncmpEq_name_iff.2 heq)

theorem SameNames.findInode (h : SameNames s s') (name : List UInt8) :
    s'.findInode name = s.findInode name := by
  rw [Vfs.findInode, Vfs.findInode]
  congr 1
  funext i
  rw [(h i).1, (h i).2]

/-- No file has a name that is too long. -/
theorem findInode_of_long (h : Terminated s) (hlong : 31 < (cString name).length) :
    s.findInode name = none := by
  refine findInode_eq_none_iff.2 fun i _ hcmp => ?_
  have hlength := congrArg List.length (strncmpEq_name_iff.1 hcmp)
  have hle : (s.nameOf i).length ≤ 31 :=
    length_cString_le (by rw [Vector.length_toList]; decide) (by simpa using h i)
  rw [List.length_take] at hlength
  omega

/-- A file just created is found, if its name is not too long. -/
theorem findInode_create (hfind : s.findInode name = none)
    (hterm : (s.inode i).name[31] = 0) (hshort : (cString name).length ≤ 31) (flags : UInt32) :
    (s.create i name flags).findInode name = some i := by
  have hname : (s.create i name flags).nameOf i = (cString name).take 32 := by
    rw [nameOf, inode_create, newInode, cString_strncpy hterm, List.take_of_length_le hshort,
      List.take_of_length_le (by omega)]
  have huse : ((s.create i name flags).inode i).inUse ≠ 0 := by
    rw [inode_create]
    exact (show (1 : UInt32) ≠ 0 by decide)
  cases hfound : (s.create i name flags).findInode name with
  | none => exact absurd hname (nameOf_ne_of_findInode hfound huse)
  | some j =>
    -- Another file would have been found before.
    obtain ⟨hj, hnamej⟩ := of_findInode hfound
    by_cases hji : j = i
    · rw [hji]
    · rw [nameOf, inode_create_of_ne s name flags hji] at hnamej
      rw [inode_create_of_ne s name flags hji] at hj
      exact absurd hnamej (nameOf_ne_of_findInode hfind hj)

/-! ## Opening -/

theorem ready_create (s : Vfs) (i : Fin 16) (name : List UInt8) (flags : UInt32) :
    (s.create i name flags).ready = s.ready := by
  rw [create, vfsSyncSuperblock]
  rfl

theorem ready_truncate (s : Vfs) (i : Fin 16) (d : Fin 8) : (s.truncate i d).ready = s.ready := by
  rw [truncate, vfsSyncSuperblock]
  rfl

theorem openFiles_truncate (s : Vfs) (i : Fin 16) (d : Fin 8) : (s.truncate i d).openFiles =
    Function.update s.openFiles d { s.openFiles d with cursor := 0 } := by
  rw [truncate, vfsSyncSuperblock]
  rfl

theorem SameNames.setSize (s : Vfs) (i : Fin 16) (size : UInt32) (h : s'.superblock.inodes =
    Function.update s.superblock.inodes i { s.inode i with sizeBytes := size }) :
    SameNames s s' := by
  intro j
  rw [inode, h]
  by_cases hj : j = i
  · rw [hj, Function.update_self]
    exact ⟨rfl, rfl⟩
  · rw [Function.update_of_ne hj]
    exact ⟨rfl, rfl⟩

theorem sameNames_truncate (s : Vfs) (i : Fin 16) (d : Fin 8) : SameNames s (s.truncate i d) := by
  refine .setSize s i 0 ?_
  rw [truncate, inodes_vfsSyncSuperblock]
  rfl

/-- A descriptor that is opened is on its file, and the names are left. -/
theorem of_opened (s : Vfs) (i : Fin 16) (d : Fin 8) (flags : UInt32) {s' : Vfs}
    (h : s' = if flags &&& oTrunc ≠ 0 then (s.opened i d flags).truncate i d
      else s.opened i d flags) :
    (s'.openFiles d).inodeIdx = i ∧ SameNames s s' ∧ s'.ready = s.ready := by
  have hopen : ((s.opened i d flags).openFiles d).inodeIdx = i :=
    congrArg VfsFileDesc.inodeIdx (Function.update_self d _ s.openFiles)
  rw [h]
  by_cases htrunc : flags &&& oTrunc ≠ 0
  · rw [if_pos htrunc, openFiles_truncate, Function.update_self, ready_truncate]
    exact ⟨hopen, sameNames_truncate (s.opened i d flags) i d, rfl⟩
  · rw [if_neg htrunc]
    exact ⟨hopen, fun _ => ⟨rfl, rfl⟩, rfl⟩

/-- Once the inode was found or created, the names are left, and a descriptor that is free is
    opened on it. -/
theorem of_targetInode (hready : s.ready = true)
    (htarget : s.targetInode (fname path) flags = (.ok i, s')) :
    SameNames s' (s.vfsOpen path flags).2 ∧
      ((∃ e, (s'.openFiles e).isOpen = false) → ∃ e, (s.vfsOpen path flags).1 = .ok e ∧
        ((s.vfsOpen path flags).2.openFiles e).inodeIdx = i) := by
  rcases vfsOpen_of_targetInode hready htarget with ⟨hfd, heq⟩ | ⟨d, -, heq⟩
  · rw [heq]
    refine ⟨fun _ => ⟨rfl, rfl⟩, fun ⟨e, he⟩ => ?_⟩
    rw [freeFd_eq_none_iff.1 hfd e] at he
    cases he
  · obtain ⟨hidx, hsame, -⟩ := of_opened s' i d flags (congrArg Prod.snd heq)
    exact ⟨hsame, fun _ => ⟨d, congrArg Prod.fst heq, hidx⟩⟩

/-! ## Faithfulness -/

/-- A file opened or created by its name is found by it, by `vfs_stat` and by `vfs_open`, as long
    as there is a descriptor, and it is not created again. -/
def LookupFaithful (s : Vfs) (path : List UInt8) : Prop :=
  ∀ flags d, flags &&& oCreat ≠ 0 → (s.vfsOpen path flags).1 = .ok d →
    (∃ st, (s.vfsOpen path flags).2.vfsStat path = .ok st) ∧
    (∀ flags', flags' &&& oCreat = 0 →
      (∃ e, ((s.vfsOpen path flags).2.openFiles e).isOpen = false) →
        ∃ e, ((s.vfsOpen path flags).2.vfsOpen path flags').1 = .ok e ∧
          (((s.vfsOpen path flags).2.vfsOpen path flags').2.openFiles e).inodeIdx =
            ((s.vfsOpen path flags).2.openFiles d).inodeIdx) ∧
    ∀ flags', flags' &&& oCreat ≠ 0 → ∀ i,
      (((s.vfsOpen path flags).2.vfsOpen path flags').2.inode i).inUse =
        ((s.vfsOpen path flags).2.inode i).inUse

/-- The name in a path has at most 31 bytes. -/
def Short (path : List UInt8) : Prop := (cString (fname path)).length ≤ 31

/-- The inode that `vfs_open` goes on with is found by its name, if that is not too long. -/
theorem findInode_targetInode (hterm : Terminated s) (hshort : (cString name).length ≤ 31)
    (htarget : s.targetInode name flags = (.ok i, s')) :
    s'.ready = s.ready ∧ s'.findInode name = some i := by
  rcases s.targetInode_cases name flags with
    ⟨_, heq⟩ | ⟨j, hfind, heq⟩ | ⟨j, hfind, -, -, heq⟩
  · rw [heq] at htarget
    cases htarget
  · rw [heq] at htarget
    cases htarget
    exact ⟨rfl, hfind⟩
  · rw [heq] at htarget
    cases htarget
    exact ⟨ready_create .., findInode_create hfind (hterm i) hshort flags⟩

/-- After `vfs_open` with a name that is not too long, the file is found. -/
theorem findInode_vfsOpen (hready : s.ready = true) (hterm : Terminated s) (hshort : Short path)
    (hok : (s.vfsOpen path flags).1 = .ok d) :
    (s.vfsOpen path flags).2.ready = true ∧ (s.vfsOpen path flags).2.findInode (fname path) =
      some ((s.vfsOpen path flags).2.openFiles d).inodeIdx := by
  rcases vfsOpen_outcome hready path flags with ⟨_, heq⟩ | ⟨i, t, e, htarget, -, heq⟩
  · cases (congrArg Prod.fst heq).symm.trans hok
  · obtain ⟨hready', hfind⟩ := findInode_targetInode hterm hshort htarget
    obtain rfl : e = d := Except.ok.inj ((congrArg Prod.fst heq).symm.trans hok)
    obtain ⟨hidx, hsame, hsameReady⟩ := of_opened t i e flags (congrArg Prod.snd heq)
    rw [hidx, hsame.findInode, hsameReady, hready']
    exact ⟨hready, hfind⟩

/-- A name that is not too long is found again. -/
theorem lookupFaithful_of_short (hready : s.ready = true) (hterm : Terminated s)
    (hshort : Short path) : LookupFaithful s path := by
  intro flags d _ hok
  obtain ⟨hready', hfind⟩ := findInode_vfsOpen hready hterm hshort hok
  refine ⟨?_, fun flags' _ hfd => ?_, fun flags' _ i => ?_⟩
  · rw [vfsStat, if_neg (by simp [hready']), hfind]
    exact ⟨_, rfl⟩
  · exact (of_targetInode hready' (targetInode_of_found hfind flags')).2 hfd
  · exact ((of_targetInode hready' (targetInode_of_found hfind flags')).1 i).2

theorem SameNames.terminated (h : SameNames s s') (hterm : Terminated s) : Terminated s' := by
  intro i
  rw [(h i).1]
  exact hterm i

theorem strncpy_last (dst : Vector UInt8 32) (src : List UInt8) :
    (strncpy dst src 31)[31] = dst[31] := by
  simp [strncpy]

theorem Terminated.create (h : Terminated s) (i : Fin 16) (name : List UInt8) (flags : UInt32) :
    Terminated (s.create i name flags) := by
  intro j
  by_cases hj : j = i
  · rw [hj, inode_create, newInode, strncpy_last]
    exact h i
  · rw [inode_create_of_ne s name flags hj]
    exact h j

/-- A file created with a name that is too long is not found. -/
theorem not_lookupFaithful_of_long (hready : s.ready = true) (hterm : Terminated s)
    (hlong : ¬Short path) (hslot : ∃ i, (s.inode i).inUse = 0)
    (hdesc : ∃ d, (s.openFiles d).isOpen = false) : ¬LookupFaithful s path := by
  intro hlaw
  rw [Short, Nat.not_le] at hlong
  have hfind := findInode_of_long hterm hlong
  obtain ⟨i, hfree⟩ := Option.ne_none_iff_exists'.1 (mt freeInode_eq_none_iff.1 fun hused =>
    hslot.elim fun i hi => hused i hi)
  have htarget := targetInode_of_creat hfind (show oCreat &&& oCreat ≠ 0 by decide) hfree
  obtain ⟨hsame, hopened⟩ := of_targetInode hready htarget
  obtain ⟨e, hok, -⟩ := hopened (by rw [openFiles_create]; exact hdesc)
  -- It is in the table, with its name cut.
  have hnone := findInode_of_long (hsame.terminated (hterm.create i (fname path) oCreat)) hlong
  obtain ⟨st, hstat⟩ := (hlaw oCreat e (by decide) hok).1
  rw [vfsStat, hnone] at hstat
  split_ifs at hstat

/-- A name is looked for faithfully if it is not too long, or if no file can be created. -/
theorem lookupFaithful_iff (hready : s.ready = true) (hterm : Terminated s)
    (path : List UInt8) : LookupFaithful s path ↔ Short path ∨
      (∀ i, (s.inode i).inUse ≠ 0) ∨ ∀ d, (s.openFiles d).isOpen = true := by
  by_cases hshort : Short path
  · exact iff_of_true (lookupFaithful_of_short hready hterm hshort) (.inl hshort)
  constructor
  · intro hlaw
    by_contra hno
    obtain ⟨-, hslots, hdescs⟩ := by simpa only [not_or, not_forall, not_not] using hno
    refine not_lookupFaithful_of_long hready hterm hshort hslots ?_ hlaw
    exact hdescs.imp fun d hd => Bool.eq_false_iff.2 hd
  · rintro (hshort' | hfull)
    · exact absurd hshort' hshort
    intro flags d hcreat hok
    exfalso
    have hfind := findInode_of_long hterm (Nat.lt_of_not_le hshort)
    rcases s.targetInode_cases (fname path) flags with
      ⟨_, htarget⟩ | ⟨i, hfound, -⟩ | ⟨i, -, hfree, -, htarget⟩
    · cases (congrArg Prod.fst (vfsOpen_of_targetInode_error hready htarget)).symm.trans hok
    · cases hfind.symm.trans hfound
    · -- There is a slot, so there is no descriptor.
      have hopen := hfull.resolve_left fun hused => hused i (freeInode_inUse hfree)
      rcases vfsOpen_of_targetInode hready htarget with ⟨-, heq⟩ | ⟨e, he, -⟩
      · cases (congrArg Prod.fst heq).symm.trans hok
      · rw [freeFd_create] at he
        cases (freeFd_eq_none_iff.2 hopen).symm.trans he

/-! ## What calls do to the names -/

/-- Files in use have different names. -/
def NamesDistinct (s : Vfs) : Prop :=
  ∀ i j, (s.inode i).inUse ≠ 0 → (s.inode j).inUse ≠ 0 → s.nameOf i = s.nameOf j → i = j

/-- The slots have the same names, and those in use were before. -/
def KeepsNames (s s' : Vfs) : Prop :=
  ∀ i, (s'.inode i).name = (s.inode i).name ∧ ((s'.inode i).inUse ≠ 0 → (s.inode i).inUse ≠ 0)

theorem SameNames.keepsNames (h : SameNames s s') : KeepsNames s s' :=
  fun i => ⟨(h i).1, fun huse => (h i).2 ▸ huse⟩

theorem keepsNames_of_inodes_eq (h : s'.superblock.inodes = s.superblock.inodes) :
    KeepsNames s s' := by
  intro i
  rw [inode, h]
  exact ⟨rfl, id⟩

theorem KeepsNames.terminated (h : KeepsNames s s') (hterm : Terminated s) : Terminated s' := by
  intro i
  rw [(h i).1]
  exact hterm i

theorem KeepsNames.namesDistinct (h : KeepsNames s s') (hdistinct : NamesDistinct s) :
    NamesDistinct s' := by
  intro i j hi hj hname
  rw [nameOf, nameOf, (h i).1, (h j).1] at hname
  exact hdistinct i j ((h i).2 hi) ((h j).2 hj) hname

/-- A file created with a name that is not too long has a name of its own. -/
theorem NamesDistinct.create (h : NamesDistinct s) (hterm : Terminated s)
    (hfind : s.findInode name = none) (hshort : (cString name).length ≤ 31) (flags : UInt32) :
    NamesDistinct (s.create i name flags) := by
  have hnew : (s.create i name flags).nameOf i = (cString name).take 32 := by
    rw [nameOf, inode_create, newInode, cString_strncpy (hterm i), List.take_of_length_le hshort,
      List.take_of_length_le (by omega)]
  have hold {j : Fin 16} (hj : j ≠ i) : (s.create i name flags).nameOf j = s.nameOf j := by
    rw [nameOf, inode_create_of_ne s name flags hj, nameOf]
  intro j k huj huk hname
  by_cases hj : j = i
  · by_cases hk : k = i
    · rw [hj, hk]
    · rw [hj, hnew, hold hk] at hname
      rw [inode_create_of_ne s name flags hk] at huk
      exact absurd hname.symm (nameOf_ne_of_findInode hfind huk)
  · rw [inode_create_of_ne s name flags hj] at huj
    by_cases hk : k = i
    · rw [hk, hnew, hold hj] at hname
      exact absurd hname (nameOf_ne_of_findInode hfind huj)
    · rw [inode_create_of_ne s name flags hk] at huk
      rw [hold hj, hold hk] at hname
      exact h j k huj huk hname

/-- A flash is mounted with the names of the superblock on it, or with those of the default
    files. -/
theorem names_vfsInit {t : Vfs} (h : Inv t) (hf : s.block.faults = [])
    (hflash : s.block.flash 0 = t.block.flash 0) :
    KeepsNames t s.vfsInit.2 ∨ s.vfsInit.2.superblock.inodes = defaultInodes := by
  by_cases hp : s.block.medium.persistent = true
  · have hread : VfsSuperblock.ofMemory (s.block.flash 0) = t.superblock := by
      rw [hflash]
      exact VfsSuperblock.ofMemory_eq h.synced
    obtain ⟨b, -, -, -, heq⟩ := vfsInit_mounted hf hp (hread ▸ h.magic)
    refine .inl (keepsNames_of_inodes_eq ?_)
    rw [heq]
    exact congrArg VfsSuperblock.inodes hread
  · obtain ⟨b, sb, -, -, hinodes, heq⟩ := vfsInit_formatted hf fun hp' => absurd hp' hp
    refine .inr ?_
    rw [heq]
    exact hinodes

/-- `vfs_open` leaves the names, or creates a file. -/
theorem names_vfsOpen (hready : s.ready = true) (path : List UInt8) (flags : UInt32) :
    SameNames s (s.vfsOpen path flags).2 ∨ ∃ i, flags &&& oCreat ≠ 0 ∧
      s.findInode (fname path) = none ∧ s.freeInode = some i ∧
        SameNames (s.create i (fname path) flags) (s.vfsOpen path flags).2 := by
  rcases s.targetInode_cases (fname path) flags with
    ⟨_, htarget⟩ | ⟨i, -, htarget⟩ | ⟨i, hfind, hfree, hcreat, htarget⟩
  · rw [vfsOpen_of_targetInode_error hready htarget]
    exact .inl fun _ => ⟨rfl, rfl⟩
  · exact .inl (of_targetInode hready htarget).1
  · exact .inr ⟨i, hcreat, hfind, hfree, (of_targetInode hready htarget).1⟩

theorem names_vfsWrite (h : Inv s) (w : SizeT) (fd : ℤ) (buffer : List UInt8) :
    SameNames s (s.vfsWrite w fd buffer).2 := by
  refine vfsWrite_rule (fun _ => ⟨rfl, rfl⟩) h w fd buffer fun d ha => ?_
  have hup := (h.rewritten w ha.isOpen buffer).up
  by_cases hlt : ((s.rewritten w d buffer).inode
    ((s.rewritten w d buffer).openFiles d).inodeIdx).sizeBytes <
      ((s.rewritten w d buffer).advanced d buffer.length).cursor
  · obtain ⟨sb, -, hsb, heq⟩ := advance_of_lt hup hlt
    rw [heq]
    exact .setSize s _ _ hsb
  · rw [advance_of_le (UInt32.not_lt.1 hlt)]
    exact fun _ => ⟨rfl, rfl⟩

theorem names_vfsDelete (h : Inv s) (path : List UInt8) :
    KeepsNames s (s.vfsDelete path).2 := by
  refine vfsDelete_rule (keepsNames_of_inodes_eq rfl) path fun i _ => ?_
  obtain ⟨sb, -, hsb, heq⟩ := remove_eq h i
  intro j
  simp only [heq, inode, commit, hsb]
  by_cases hj : j = i
  · rw [hj, Function.update_self]
    exact ⟨rfl, fun huse => absurd rfl huse⟩
  · rw [Function.update_of_ne hj]
    exact ⟨rfl, id⟩

/-! ## Runs -/

/-- A call of `vfs_open` that may create a file has a name that is not too long. -/
def Call.Short : Call → Prop
  | .vfsOpen path flags => flags &&& oCreat ≠ 0 → Vfs.Short path
  | _ => True

/-- The runs that create no file with a name that is too long. -/
inductive ReachableShort (w : SizeT) : Vfs → Prop
  | format (medium : Medium) {flash : Image}
      (hblank : (VfsSuperblock.ofMemory (flash 0)).magic ≠ blockMagic) :
      ReachableShort w (mount medium flash)
  | call {s : Vfs} (h : ReachableShort w s) {c : Call} (hc : c.Short) :
      ReachableShort w (s.exec w c)
  | powerCut {s : Vfs} (h : ReachableShort w s) {c : Call} (hc : c.Short) (n j : ℕ)
      (hcut : s.interrupted w c n j 0 = s.block.flash 0 ∨
        s.interrupted w c n j 0 = (s.exec w c).block.flash 0) :
      ReachableShort w (mount s.block.medium (s.interrupted w c n j))

/-- All names end with a zero byte, and they differ. -/
structure NamesOk (s : Vfs) : Prop where
  terminated : Terminated s
  distinct : NamesDistinct s

theorem ReachableShort.reachable (h : ReachableShort w s) : Reachable w s := by
  induction h with
  | format medium hblank => exact .format medium hblank
  | call _ _ ih => exact ih.call _
  | powerCut _ _ n j hcut ih => exact ih.powerCut _ n j hcut

theorem KeepsNames.namesOk (h : KeepsNames s s') (hok : NamesOk s) : NamesOk s' :=
  ⟨h.terminated hok.terminated, h.namesDistinct hok.distinct⟩

theorem namesOk_of_default (h : s.superblock.inodes = defaultInodes) : NamesOk s := by
  constructor
  · intro i
    rw [inode, h]
    revert i
    decide +kernel
  · intro i j
    rw [nameOf, nameOf, inode, inode, h]
    revert i j
    decide +kernel

/-- A call that creates no file with a name that is too long keeps the names apart. -/
theorem NamesOk.exec (h : NamesOk s) (hinv : Inv s) (w : SizeT) {c : Call} (hc : c.Short) :
    NamesOk (s.exec w c) := by
  cases c with
  | vfsInit =>
    -- The superblock is read again, or the default files have it.
    rcases names_vfsInit hinv hinv.up.faults rfl with hkeeps | hdefault
    · exact hkeeps.namesOk h
    · exact namesOk_of_default hdefault
  | vfsOpen path flags =>
    rcases names_vfsOpen hinv.ready path flags with hsame | ⟨i, hcreat, hfind, -, hsame⟩
    · exact hsame.keepsNames.namesOk h
    · exact hsame.keepsNames.namesOk ⟨h.terminated.create i (fname path) flags,
        h.distinct.create h.terminated hfind (hc hcreat) flags⟩
  | vfsRead fd size =>
    have hkeeps := vfsRead_rule (P := KeepsNames s) (keepsNames_of_inodes_eq rfl) hinv w fd size
      fun _ _ _ _ _ => keepsNames_of_inodes_eq rfl
    exact hkeeps.namesOk h
  | vfsWrite fd buffer => exact (names_vfsWrite hinv w fd buffer).keepsNames.namesOk h
  | vfsClose fd =>
    have hkeeps := vfsClose_rule (P := KeepsNames s) (keepsNames_of_inodes_eq rfl) fd
      fun _ => keepsNames_of_inodes_eq rfl
    exact hkeeps.namesOk h
  | vfsDelete path => exact (names_vfsDelete hinv path).namesOk h

theorem NamesOk.mount (h : NamesOk s) (hinv : Inv s) {medium : Medium} {flash : Image}
    (hflash : flash 0 = s.block.flash 0) : NamesOk (mount medium flash) := by
  rcases names_vfsInit (s := powerOn medium flash []) hinv rfl hflash with hkeeps | hdefault
  · exact hkeeps.namesOk h
  · exact namesOk_of_default hdefault

theorem ReachableShort.namesOk (h : ReachableShort w s) : NamesOk s := by
  induction h with
  | format medium hblank =>
    obtain ⟨b, sb, -, -, hinodes, heq⟩ :=
      vfsInit_formatted (s := powerOn medium _ []) rfl fun _ => hblank
    refine namesOk_of_default ?_
    rw [Vfs.mount, heq]
    exact hinodes
  | call h hc ih => exact ih.exec h.reachable.inv w hc
  | powerCut h hc n j hcut ih =>
    have hinv := h.reachable.inv
    rcases hcut with hcut | hcut
    · exact ih.mount hinv hcut
    · exact (ih.exec hinv w hc).mount (hinv.exec w _) hcut

/-- In a run that creates no file with a name that is too long, files in use have different
    names, and a name is looked for faithfully if and only if it is not too long, or no file can
    be created. -/
theorem lookup_faithful (h : ReachableShort w s) : NamesDistinct s ∧
    ∀ path, LookupFaithful s path ↔ Short path ∨
      (∀ i, (s.inode i).inUse ≠ 0) ∨ ∀ d, (s.openFiles d).isOpen = true :=
  ⟨h.namesOk.distinct, lookupFaithful_iff h.reachable.inv.ready h.namesOk.terminated⟩

theorem lookup_faithful_macro : NamesDistinct formatted ∧
    ∀ path, LookupFaithful formatted path ↔ Short path ∨
      (∀ i, (formatted.inode i).inUse ≠ 0) ∨ ∀ d, (formatted.openFiles d).isOpen = true :=
  lookup_faithful (w := .bits32) (.format .osfs (by decide +kernel))

/-- A name of 32 letters. -/
def longName : List UInt8 := List.replicate 32 0x61

/-- A file created with it on a flash just formatted is not found, and two of them have the same
    name. -/
theorem longName_lost : Reachable .bits32 formatted ∧ ¬LookupFaithful formatted longName ∧
    Reachable .bits32 ((formatted.exec .bits32 (.vfsOpen longName oCreat)).exec .bits32
      (.vfsOpen longName oCreat)) ∧
    ¬NamesDistinct ((formatted.exec .bits32 (.vfsOpen longName oCreat)).exec .bits32
      (.vfsOpen longName oCreat)) := by
  have hreach : Reachable .bits32 formatted := reachable_formatted
  have hterm : Terminated formatted :=
    (ReachableShort.format (w := .bits32) .osfs (by decide +kernel)).namesOk.terminated
  refine ⟨hreach, ?_, (hreach.call _).call _, fun hdistinct => ?_⟩
  · have hlong : ¬Short longName := by
      rw [Short]
      decide
    exact not_lookupFaithful_of_long hreach.inv.ready hterm hlong ⟨2, by decide +kernel⟩
      ⟨0, by decide +kernel⟩
  · have heq := hdistinct 2 3 (by decide +kernel) (by decide +kernel) (by decide +kernel)
    cases heq

end Vfs

end SliverOS
