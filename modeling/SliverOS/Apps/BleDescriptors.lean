import SliverOS.Apps.BleHid
import SliverOS.Streams.Run
import SliverOS.Vfs.Access

/-!
# Descriptors of the BLE HID application

The application on the file system, of which it is the only user: it opens `macro.txt` in the
state `openFile` and keeps the descriptor in `s_macro_fd`, to close it. The state is set to
`openFile` by every connection, with a descriptor or without one, and `ble_hid_init` forgets the
one there is.

* `holdsOne_iff`: at most one descriptor is open, the one that is kept, exactly as long as
  `ble_hid_init` is not called, and no file opened, with a descriptor kept.
-/

namespace SliverOS

open Streams

/-! ## Open descriptors -/

namespace Vfs

variable {v v' : Vfs} {d : Fin 8}

/-- The descriptors that are open. -/
def openFds (v : Vfs) : Finset (Fin 8) := Finset.univ.filter fun d => (v.openFiles d).isOpen

theorem mem_openFds : d ∈ v.openFds ↔ (v.openFiles d).isOpen = true := by simp [openFds]

/-- `macro.txt` can be opened, if there is a descriptor for it: the file system is mounted, and
    the file is in it. -/
structure HasMacro (v : Vfs) : Prop where
  ready : v.ready = true
  found : v.findInode (ascii "macro.txt") ≠ none

/-- Nothing changes but the positions of the descriptors. -/
structure SameFds (v v' : Vfs) : Prop where
  openFds : v'.openFds = v.openFds
  superblock : v'.superblock = v.superblock
  ready : v'.ready = v.ready

theorem SameFds.refl (v : Vfs) : SameFds v v := ⟨rfl, rfl, rfl⟩

theorem HasMacro.congr (h : v.HasMacro) (hsb : v'.superblock = v.superblock)
    (hready : v'.ready = v.ready) : v'.HasMacro := by
  refine ⟨hready.trans h.ready, ?_⟩
  have hinode : v'.inode = v.inode := by
    funext i
    rw [inode, inode, hsb]
  rw [findInode, hinode]
  exact h.found

theorem openFds_vfsInit (v : Vfs) : v.vfsInit.2.openFds = ∅ := by
  have hfiles : v.vfsInit.2.openFiles = fun _ => ⟨0, 0, 0, false⟩ := by
    rw [vfsInit]
    dsimp only
    split_ifs
    · rfl
    · rfl
    · rfl
  ext d
  simp [mem_openFds, hfiles]

theorem openFds_of_update {desc : VfsFileDesc}
    (h : v'.openFiles = Function.update v.openFiles d desc) :
    v'.openFds = if desc.isOpen = true then insert d v.openFds else v.openFds.erase d := by
  ext e
  rw [mem_openFds, h]
  by_cases he : e = d
  · subst he
    rw [Function.update_self]
    split_ifs with hdesc
    · simp [hdesc]
    · simp [hdesc]
  · rw [Function.update_of_ne he, ← mem_openFds]
    split_ifs
    · simp [he]
    · simp [he]

theorem sameFds_vfsRead (w : SizeT) (v : Vfs) (fd : ℤ) (n : ℕ) :
    SameFds v (v.vfsRead w fd n).2 := by
  rw [vfsRead]
  cases fd? fd with
  | none => exact .refl v
  | some d =>
    simp only
    split_ifs with _ hclosed
    · exact .refl v
    · exact .refl v
    · exact .refl v
    · exact ⟨rfl, rfl, rfl⟩
    · -- Only the cursor of the descriptor moves.
      have hopen : (v.openFiles d).isOpen = true := by simpa using hclosed
      refine ⟨?_, rfl, rfl⟩
      rw [openFds_of_update rfl, if_pos hopen, Finset.insert_eq_of_mem (mem_openFds.2 hopen)]

theorem openFds_vfsClose (h : d ∈ v.openFds) :
    (v.vfsClose (d : ℕ)).2.openFds = v.openFds.erase d := by
  rw [vfsClose, fd?_eq]
  simp only
  rw [if_neg (by simp [mem_openFds.1 h]), openFds_of_update rfl, if_neg (by simp)]

/-- Without a free descriptor, all are open. -/
theorem openFds_of_freeFd (h : v.freeFd = none) : v.openFds = Finset.univ := by
  ext d
  simpa [mem_openFds] using List.find?_eq_none.1 h d (List.mem_finRange d)

/-- `macro.txt` is opened, if it can be and there is a descriptor for it. -/
theorem vfsOpen_macro (v : Vfs) :
    (v.HasMacro ∧ ∃ d desc, d ∉ v.openFds ∧ desc.isOpen = true ∧
      v.vfsOpen (ascii "macro.txt") oRdonly =
        (.ok d, { v with openFiles := Function.update v.openFiles d desc })) ∨
      (v.HasMacro → v.openFds = Finset.univ) ∧
        ∃ status, v.vfsOpen (ascii "macro.txt") oRdonly = (.error status, v) := by
  by_cases hready : v.ready = true
  swap
  · exact .inr ⟨fun h => absurd h.ready hready, vfsOpen_of_not_ready hready _ _⟩
  have hname : fname (ascii "macro.txt") = ascii "macro.txt" := by decide
  cases hfind : v.findInode (ascii "macro.txt") with
  | none =>
    refine .inr ⟨fun h => absurd hfind h.found, .notFound, ?_⟩
    rw [vfsOpen, if_neg (by simp [hready]), hname, targetInode, hfind]
    rfl
  | some i =>
    have htarget : v.targetInode (fname (ascii "macro.txt")) oRdonly = (.ok i, v) := by
      rw [hname, targetInode, hfind]
    rcases vfsOpen_of_targetInode hready htarget with ⟨hnone, heq⟩ | ⟨d, hfd, heq⟩
    · exact .inr ⟨fun _ => openFds_of_freeFd hnone, .busy, heq⟩
    · rw [if_neg (by decide)] at heq
      refine .inl ⟨⟨hready, by simp [hfind]⟩, d, _, ?_, rfl, heq⟩
      rw [mem_openFds, freeFd_isOpen hfd]
      simp

end Vfs

/-! ## The application on the file system -/

/-- What an effect of the application does to the file system. -/
def BleHid.Effect.onVfs (v : Vfs) : BleHid.Effect → Vfs
  | .vfsOpen path flags => (v.vfsOpen path flags).2
  | .vfsClose fd => (v.vfsClose fd).2
  | _ => v

/-- The application and the file system that it is on. -/
structure BleSystem (σ : Type) where
  app : BleHid σ
  vfs : Vfs

namespace BleSystem

variable {σ : Type}

/-- A call of the application: a task reads through some descriptors, and what can be read of
    a file that it opens is `file`. -/
inductive Call (σ : Type)
  | bleHidInit
  | bleHidStart (advertising : MkStatus)
  | bleHidStop
  | bleHidTask (connected : Bool) (file : σ) (reads : List (ℤ × ℕ))
  | bleHidHandleEvent (type : MkEventType)

/-- The call with the reply of `vfs_open` to it. -/
def Call.replied (v : Vfs) : Call σ → BleHid.Call σ
  | .bleHidInit => .bleHidInit
  | .bleHidStart advertising => .bleHidStart advertising
  | .bleHidStop => .bleHidStop
  | .bleHidTask connected file _ =>
    .bleHidTask connected ((v.vfsOpen (ascii "macro.txt") oRdonly).1.map (·, file))
  | .bleHidHandleEvent type => .bleHidHandleEvent type

/-- The file system after what a call reads. -/
def readAll (w : SizeT) (v : Vfs) : Call σ → Vfs
  | .bleHidTask _ _ reads => reads.foldl (fun v r => (v.vfsRead w r.1 r.2).2) v
  | _ => v

/-- The application and the file system after a call. -/
def next [MacroSource σ] (w : SizeT) (s : BleSystem σ) (c : Call σ) : BleSystem σ :=
  let v := readAll w s.vfs c
  let (effects, app) := s.app.exec (c.replied v)
  ⟨app, effects.foldl BleHid.Effect.onVfs v⟩

/-- At most one descriptor is open, and the application has it; `vfs_open` always finds one. -/
structure HoldsOne (s : BleSystem σ) : Prop where
  card_le : s.vfs.openFds.card ≤ 1
  card_eq_zero : s.vfs.openFds.card = 0 ↔ s.app.macroFd < 0
  free : s.vfs.freeFd ≠ none

/-- A call that does not forget a descriptor: `ble_hid_init`, or a task that opens the file,
    without any. -/
def Keeps (s : BleSystem σ) : Call σ → Prop
  | .bleHidInit => s.app.macroFd < 0
  | .bleHidTask .. => s.app.state = .openFile → s.app.macroFd < 0
  | _ => True

/-- The value of `s_macro_fd` for a descriptor, if there is one. -/
def fdOf : Option (Fin 8) → ℤ
  | none => -1
  | some d => (d : ℕ)

/-- The open descriptors are the one of the application, if it has one, and the file is there
    then. -/
structure Holds (s : BleSystem σ) (held : Option (Fin 8)) : Prop where
  macroFd : s.app.macroFd = fdOf held
  openFds : s.vfs.openFds = held.toFinset
  hasMacro : held ≠ none → s.vfs.HasMacro

variable {s : BleSystem σ} {held : Option (Fin 8)}

theorem keeps_of_lt (h : s.app.macroFd < 0) (c : Call σ) : Keeps s c := by
  cases c with
  | bleHidInit => exact h
  | bleHidTask => exact fun _ => h
  | _ => trivial

theorem fdOf_lt_iff : fdOf held < 0 ↔ held = none := by
  cases held with
  | none => simp [fdOf]
  | some d => simp [fdOf]

theorem card_toFinset_le (held : Option (Fin 8)) : held.toFinset.card ≤ 1 := by
  cases held with
  | none => simp
  | some d => simp

/-- Not all of the eight are open. -/
theorem Holds.openFds_ne (h : Holds s held) : s.vfs.openFds ≠ Finset.univ := by
  intro hall
  have hle := card_toFinset_le held
  rw [← h.openFds, hall] at hle
  simp at hle

theorem Holds.holdsOne (h : Holds s held) : HoldsOne s := by
  refine ⟨?_, ?_, fun hnone => h.openFds_ne (Vfs.openFds_of_freeFd hnone)⟩
  · rw [h.openFds]
    exact card_toFinset_le held
  · rw [h.openFds, h.macroFd, fdOf_lt_iff]
    cases held with
    | none => simp
    | some d => simp

theorem sameFds_readAll (w : SizeT) (v : Vfs) (c : Call σ) : Vfs.SameFds v (readAll w v c) := by
  cases c with
  | bleHidTask connected file reads =>
    rw [readAll]
    induction reads generalizing v with
    | nil => exact .refl v
    | cons r reads ih =>
      have hread := Vfs.sameFds_vfsRead w v r.1 r.2
      have hrest := ih (v.vfsRead w r.1 r.2).2
      exact ⟨hrest.openFds.trans hread.openFds, hrest.superblock.trans hread.superblock,
        hrest.ready.trans hread.ready⟩
  | _ => exact .refl v

/-- What a call does with the descriptors, after it has read: nothing, and it does not open the
    file only if that cannot be opened; to close the one that the application has; to forget
    it; or to open one. -/
inductive Does (v : Vfs) (s s' : BleSystem σ) (c : Call σ) : Prop
  | nothing (vfs : s'.vfs = v) (macroFd : s'.app.macroFd = s.app.macroFd)
      (keeps : v.HasMacro → v.openFds ≠ Finset.univ → Keeps s c)
  | close (held : 0 ≤ s.app.macroFd) (vfs : s'.vfs = (v.vfsClose s.app.macroFd).2)
      (macroFd : s'.app.macroFd = -1) (keeps : Keeps s c)
  | forget (vfs : s'.vfs = v) (macroFd : s'.app.macroFd = -1)
      (keeps : Keeps s c ↔ s.app.macroFd < 0)
  | opens (hasMacro : v.HasMacro) (d : Fin 8) (desc : VfsFileDesc) (closed : d ∉ v.openFds)
      (isOpen : desc.isOpen = true)
      (vfs : s'.vfs = { v with openFiles := Function.update v.openFiles d desc })
      (macroFd : s'.app.macroFd = (d : ℕ)) (keeps : Keeps s c ↔ s.app.macroFd < 0)

/-- The file is closed, if there is one. -/
theorem closeFile_cases (s : BleHid σ) (v : Vfs) :
    (s.closeFile.1.foldl BleHid.Effect.onVfs v = v ∧ s.closeFile.2.macroFd = s.macroFd) ∨
      0 ≤ s.macroFd ∧ s.closeFile.1.foldl BleHid.Effect.onVfs v = (v.vfsClose s.macroFd).2 ∧
        s.closeFile.2.macroFd = -1 := by
  rw [BleHid.closeFile]
  split_ifs with hfd
  · exact .inr ⟨hfd, rfl, rfl⟩
  · exact .inl ⟨rfl, rfl⟩

/-- An event closes the file, or does nothing with it. -/
theorem handleMacroEvent_descriptors (s : BleHid σ) (evt : MacroEvent) (v : Vfs) :
    ((s.handleMacroEvent evt).1.foldl BleHid.Effect.onVfs v = v ∧
        (s.handleMacroEvent evt).2.macroFd = s.macroFd) ∨
      0 ≤ s.macroFd ∧
        (s.handleMacroEvent evt).1.foldl BleHid.Effect.onVfs v = (v.vfsClose s.macroFd).2 ∧
        (s.handleMacroEvent evt).2.macroFd = -1 := by
  rw [BleHid.handleMacroEvent]
  split_ifs
  · exact closeFile_cases s v
  · exact .inl ⟨rfl, rfl⟩
  · exact .inl ⟨rfl, rfl⟩
  · exact .inl ⟨rfl, rfl⟩
  · exact .inl ⟨rfl, rfl⟩

theorem macroFd_waitTick (s : BleHid σ) (state : BleAppInternalState) :
    (s.waitTick state).macroFd = s.macroFd := by
  rw [BleHid.waitTick]
  split_ifs <;> rfl

theorem does_next [MacroSource σ] (w : SizeT) (s : BleSystem σ) (c : Call σ) :
    Does (readAll w s.vfs c) s (next w s c) c := by
  cases c with
  | bleHidInit => exact .forget rfl rfl Iff.rfl
  | bleHidStart advertising =>
    refine .nothing rfl ?_ fun _ _ => trivial
    simp only [next, Call.replied, BleHid.exec, BleHid.bleHidStart]
    split_ifs <;> rfl
  | bleHidStop =>
    have hvfs : (next w s (.bleHidStop)).vfs =
        s.app.closeFile.1.foldl BleHid.Effect.onVfs s.vfs := by
      simp only [next, Call.replied, BleHid.exec, BleHid.bleHidStop, List.foldl_concat]
      rfl
    rcases closeFile_cases s.app s.vfs with ⟨heq, hfd⟩ | ⟨hheld, heq, hfd⟩
    · exact .nothing (hvfs.trans heq) hfd fun _ _ => trivial
    · exact .close hheld (hvfs.trans heq) hfd trivial
  | bleHidTask connected file reads =>
    obtain ⟨⟨state, parser, macroFd, delayRemainingTicks⟩, vfs⟩ := s
    cases state with
    | uninit => exact .nothing rfl rfl fun _ _ => nofun
    | waitConnection =>
      cases connected with
      | false => exact .nothing rfl rfl fun _ _ => nofun
      | true => exact .nothing rfl rfl fun _ _ => nofun
    | openFile =>
      rcases Vfs.vfsOpen_macro (readAll w vfs (.bleHidTask connected file reads))
        with ⟨hhas, d, desc, hclosed, hopen, heq⟩ | ⟨hno, status, heq⟩
      · refine .opens hhas d desc hclosed hopen ?_ ?_ (by simp [Keeps])
        · simp [next, Call.replied, BleHid.exec, BleHid.bleHidTask, Except.map, heq,
            BleHid.openMacro, BleHid.Effect.onVfs]
        · simp [next, Call.replied, BleHid.exec, BleHid.bleHidTask, Except.map, heq]
      · refine .nothing ?_ ?_ fun hhas hfree => absurd (hno hhas) hfree
        · simp [next, Call.replied, BleHid.exec, BleHid.bleHidTask, Except.map, heq,
            BleHid.openMacro, BleHid.Effect.onVfs]
        · simp [next, Call.replied, BleHid.exec, BleHid.bleHidTask, Except.map, heq]
    | parse =>
      rcases handleMacroEvent_descriptors
        ⟨.parse, parser.macroParserNextEvent.2, macroFd, delayRemainingTicks⟩
        parser.macroParserNextEvent.1 (readAll w vfs (.bleHidTask connected file reads))
        with ⟨heq, hfd⟩ | ⟨hheld, heq, hfd⟩
      · exact .nothing heq hfd fun _ _ => nofun
      · exact .close hheld heq hfd nofun
    | release => exact .nothing rfl rfl fun _ _ => nofun
    | delay => exact .nothing rfl (macroFd_waitTick _ _) fun _ _ => nofun
    | cooldown => exact .nothing rfl (macroFd_waitTick _ _) fun _ _ => nofun
  | bleHidHandleEvent type =>
    refine .nothing rfl ?_ fun _ _ => trivial
    simp only [next, Call.replied, BleHid.exec, BleHid.bleHidHandleEvent]
    split_ifs <;> rfl

variable [MacroSource σ]

/-- One descriptor is held after a call exactly if the call does not forget one. -/
theorem holdsOne_next_iff (w : SizeT) (h : Holds s held) (c : Call σ) :
    (HoldsOne (next w s c) ↔ Keeps s c) ∧ (Keeps s c → ∃ held, Holds (next w s c) held) := by
  have hsame := sameFds_readAll w s.vfs c
  cases does_next w s c with
  | nothing vfs macroFd keeps =>
    have hnext : Holds (next w s c) held :=
      ⟨macroFd.trans h.macroFd, by rw [vfs, hsame.openFds, h.openFds], fun hheld => by
        rw [vfs]
        exact (h.hasMacro hheld).congr hsame.superblock hsame.ready⟩
    have hkeeps : Keeps s c := by
      cases held with
      | none => exact keeps_of_lt (by rw [h.macroFd]; exact fdOf_lt_iff.2 rfl) c
      | some d =>
        exact keeps ((h.hasMacro (by simp)).congr hsame.superblock hsame.ready)
          (hsame.openFds ▸ h.openFds_ne)
    exact ⟨iff_of_true hnext.holdsOne hkeeps, fun _ => ⟨held, hnext⟩⟩
  | close hheld vfs macroFd keeps =>
    obtain ⟨d, rfl⟩ : ∃ d, held = some d := by
      refine Option.ne_none_iff_exists'.1 fun hnone => ?_
      rw [h.macroFd] at hheld
      exact absurd (fdOf_lt_iff.2 hnone) (not_lt.2 hheld)
    have hopen : (readAll w s.vfs c).openFds = {d} := by rw [hsame.openFds, h.openFds]; simp
    have hnext : Holds (next w s c) none := by
      refine ⟨macroFd, ?_, fun hnone => absurd rfl hnone⟩
      rw [vfs, h.macroFd, fdOf, Vfs.openFds_vfsClose (by rw [hopen]; simp), hopen]
      simp
    exact ⟨iff_of_true hnext.holdsOne keeps, fun _ => ⟨none, hnext⟩⟩
  | forget vfs macroFd keeps =>
    have hopen : (next w s c).vfs.openFds = held.toFinset := by rw [vfs, hsame.openFds, h.openFds]
    have hiff : Keeps s c ↔ held = none := by rw [keeps, h.macroFd, fdOf_lt_iff]
    have hnext (hnone : held = none) : Holds (next w s c) none :=
      ⟨macroFd, by rw [hopen, hnone], fun hnone => absurd rfl hnone⟩
    rw [hiff]
    refine ⟨⟨?_, fun hnone => (hnext hnone).holdsOne⟩, fun hnone => ⟨none, hnext hnone⟩⟩
    intro hone
    -- A descriptor that is forgotten stays open.
    have hcard := hone.card_eq_zero.2 (by rw [macroFd]; decide)
    rw [hopen] at hcard
    cases held with
    | none => rfl
    | some d => simp at hcard
  | opens hasMacro d desc closed isOpen vfs macroFd keeps =>
    have hopen : (next w s c).vfs.openFds = insert d held.toFinset := by
      rw [Vfs.openFds_of_update (congrArg Vfs.openFiles vfs), if_pos isOpen, hsame.openFds,
        h.openFds]
    rw [hsame.openFds, h.openFds] at closed
    have hiff : Keeps s c ↔ held = none := by rw [keeps, h.macroFd, fdOf_lt_iff]
    have hnext (hnone : held = none) : Holds (next w s c) (some d) := by
      refine ⟨macroFd, ?_, fun _ => ?_⟩
      · rw [hopen, hnone]
        simp
      · rw [vfs]
        exact hasMacro.congr rfl rfl
    rw [hiff]
    refine ⟨⟨?_, fun hnone => (hnext hnone).holdsOne⟩, fun hnone => ⟨_, hnext hnone⟩⟩
    intro hone
    -- The descriptor that there was stays open as well.
    have hcard := hone.card_le
    rw [hopen, Finset.card_insert_of_notMem closed] at hcard
    cases held with
    | none => rfl
    | some d => simp at hcard

/-- At most one descriptor is open, and the application has it, exactly as long as no call
    forgets one. -/
theorem holdsOne_iff (w : SizeT) (v : Vfs) (parser : MacroParser σ) (run : List (Call σ)) :
    (∀ before, before <+: run → HoldsOne (before.foldl (next w) ⟨.zero parser, v.vfsInit.2⟩)) ↔
      Throughout (next w) Keeps ⟨.zero parser, v.vfsInit.2⟩ run := by
  have hinit : Holds (⟨.zero parser, v.vfsInit.2⟩ : BleSystem σ) none :=
    ⟨rfl, v.openFds_vfsInit, fun h => absurd rfl h⟩
  rw [forall_prefix_iff, and_iff_right hinit.holdsOne]
  exact throughout_congr (I := fun s => ∃ held, Holds s held) ⟨none, hinit⟩
    (fun s c ⟨held, h⟩ => (holdsOne_next_iff w h c).1)
    fun s c ⟨held, h⟩ hkeeps => (holdsOne_next_iff w h c).2 hkeeps

/-- The application is reset with the macro open, on a file system just formatted. -/
theorem reset_forgets : ¬∀ before, before <+: [.bleHidInit, .bleHidTask true Vfs.defaultMacro [],
      .bleHidTask true Vfs.defaultMacro [], .bleHidInit] →
    HoldsOne (before.foldl (next .bits32) ⟨.zero (macroParserInit []), Vfs.formatted⟩) := by
  intro h
  have hcard := (h _ (List.prefix_refl _)).card_eq_zero.2 (by decide +kernel)
  exact absurd hcard (by decide +kernel)

end BleSystem

end SliverOS
