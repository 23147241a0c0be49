import SliverOS.Protocol.Service

/-!
# Launching and leaving applications

The commands `LAUNCH_APP` and `EXIT_APP` over whole runs, from a state in which
all of the applications are ready.

The matrix has no transition from ACTIVE to READY, so `EXIT_APP` leaves an
active application active; and `LAUNCH_APP` does not touch the application that
was active. The active applications are thus all those ever launched
(`Lifecycle.run`):

* `exclusive_iff`: there is at most one of them if and only if no two different
  applications were launched;
* `left_iff`: leaving an application works if and only if it was not launched.
-/

namespace SliverOS

open Firmware

/-! ## Commands on applications -/

/-- A frame carrying `SLVR_CMD_LAUNCH_APP` or `SLVR_CMD_EXIT_APP`, with any payload. -/
structure AppCommand where
  frame : SlvrFrame
  cmd : SlvrCmd.ofType? frame.type = some .launchApp ∨ SlvrCmd.ofType? frame.type = some .exitApp

namespace AppCommand

/-- The application a command launches. -/
def launches? (c : AppCommand) : Option MkAppId :=
  if SlvrCmd.ofType? c.frame.type = some .launchApp then c.frame.app? else none

/-- The application a command leaves. -/
def exits? (c : AppCommand) : Option MkAppId :=
  if SlvrCmd.ofType? c.frame.type = some .exitApp then c.frame.app? else none

/-- A command with a payload of one byte, the application. -/
def ofByte (type : UInt8) (h : SlvrCmd.ofType? type = some .launchApp ∨
    SlvrCmd.ofType? type = some .exitApp) (a : MkAppId) : AppCommand :=
  ⟨⟨1, type, 0, 0, 1, (Vector.replicate 512 0).setIfInBounds 0 a.toByte, 0⟩, h⟩

/-- `LAUNCH_APP` of an application. -/
def launch (a : MkAppId) : AppCommand := ofByte 0x84 (.inl rfl) a

/-- `EXIT_APP` of an application. -/
def exit (a : MkAppId) : AppCommand := ofByte 0x85 (.inr rfl) a

end AppCommand

/-- Commands on applications handled in turn. -/
def Service.runApps (s : Service) (cmds : List AppCommand) : Service :=
  s.run (cmds.map AppCommand.frame)

@[simp] theorem Service.runApps_append_singleton (s : Service) (cmds : List AppCommand)
    (c : AppCommand) :
    s.runApps (cmds ++ [c]) = (handleIncomingFrame (s.runApps cmds) c.frame).1 := by
  simp [Service.runApps]

/-- All of the applications are ready. -/
def Service.AllReady (s : Service) : Prop := ∀ a, (s.kernel.apps a).state = .ready

/-- At most one application is active. -/
def Service.AtMostOneActive (s : Service) : Prop :=
  ∀ a b, (s.kernel.apps a).state = .active → (s.kernel.apps b).state = .active → a = b

/-! ## What a command does -/

section

variable {s : Service} {c : AppCommand} {a : MkAppId}

/-- A command launches, leaves, or does nothing to the kernel. -/
theorem handle_cases (s : Service) (c : AppCommand) :
    (∃ a, c.launches? = some a ∧ (handleIncomingFrame s c.frame).1.kernel =
      (s.launchApp a).kernel) ∨
    (∃ a, c.launches? = none ∧ c.exits? = some a ∧
      (handleIncomingFrame s c.frame).1.kernel = (s.exitApp a).kernel) ∨
    (c.launches? = none ∧ c.exits? = none ∧
      (handleIncomingFrame s c.frame).1.kernel = s.kernel) := by
  rw [handleIncomingFrame, AppCommand.launches?, AppCommand.exits?]
  rcases c.cmd with hcmd | hcmd
  · simp only [hcmd, if_true]
    cases happ : c.frame.app? with
    | none => exact .inr (.inr ⟨rfl, rfl, rfl⟩)
    | some a => exact .inl ⟨a, rfl, rfl⟩
  · simp only [hcmd, if_true]
    cases happ : c.frame.app? with
    | none => exact .inr (.inr ⟨rfl, rfl, rfl⟩)
    | some a => exact .inr (.inl ⟨a, rfl, rfl, rfl⟩)

/-- An application is active when it is among the launched ones, and otherwise ready. -/
def Lifecycle (s : Service) (launched : List MkAppId) : Prop :=
  ∀ a, (s.kernel.apps a).state = if a ∈ launched then .active else .ready

/-- Launching makes an application active, if it was not. -/
theorem Lifecycle.launchApp {launched : List MkAppId} (h : Lifecycle s launched) (a : MkAppId) :
    Lifecycle (s.launchApp a) (launched ++ [a]) := by
  intro b
  have hkernel : ((s.launchApp a).kernel.apps b).state =
      ((s.kernel.mkAppTransition a .active).1.apps b).state := rfl
  rw [hkernel]
  by_cases ha : a ∈ launched
  · -- Refused: the application is active already.
    have hrefused : ¬appTransitionMatrix (s.kernel.apps a).state .active := by
      rw [h a, if_pos ha]
      decide
    rw [(MkKernel.mkAppTransition_of_not_valid hrefused).1, h b]
    by_cases hb : b = a
    · simp [hb, ha]
    · simp [hb]
  · have hvalid : appTransitionMatrix (s.kernel.apps a).state .active := by
      rw [h a, if_neg ha]
      decide
    rw [MkKernel.mkAppTransition_of_valid hvalid]
    by_cases hb : b = a
    · simp [hb]
    · simp [hb, h b]

/-- Leaving changes nothing: READY is entered neither from READY nor from ACTIVE. -/
theorem Lifecycle.exitApp {launched : List MkAppId} (h : Lifecycle s launched) (a : MkAppId) :
    (s.exitApp a).kernel = s.kernel := by
  have hrefused : ¬appTransitionMatrix (s.kernel.apps a).state .ready := by
    rw [h a]
    split <;> decide
  exact (MkKernel.mkAppTransition_of_not_valid hrefused).1

theorem Lifecycle.of_kernel_eq {t : Service} {launched : List MkAppId} (h : Lifecycle s launched)
    (ht : t.kernel = s.kernel) : Lifecycle t launched := fun a => by rw [ht, h a]

/-- A command adds to the launched applications the one it launches. -/
theorem Lifecycle.handle {launched : List MkAppId} (h : Lifecycle s launched) (c : AppCommand) :
    Lifecycle (handleIncomingFrame s c.frame).1 (launched ++ c.launches?.toList) := by
  rcases handle_cases s c with ⟨a, ha, hk⟩ | ⟨a, hnone, _, hk⟩ | ⟨hnone, _, hk⟩
  · rw [ha]
    exact (h.launchApp a).of_kernel_eq hk
  · rw [hnone, Option.toList_none, List.append_nil]
    exact h.of_kernel_eq (hk.trans (h.exitApp a))
  · rw [hnone, Option.toList_none, List.append_nil]
    exact h.of_kernel_eq hk

/-- After any commands, the active applications are those launched. -/
theorem Lifecycle.run (hs : s.AllReady) (cmds : List AppCommand) :
    Lifecycle (s.runApps cmds) (cmds.filterMap AppCommand.launches?) := by
  induction cmds using List.reverseRecOn with
  | nil => exact fun a => by simpa [Service.runApps] using hs a
  | append_singleton cmds c ih =>
    rw [Service.runApps_append_singleton, List.filterMap_append]
    have := ih.handle c
    cases hc : c.launches? <;> simpa [hc] using this

theorem active_iff (hs : s.AllReady) (cmds : List AppCommand) (a : MkAppId) :
    ((s.runApps cmds).kernel.apps a).state = .active ↔ ∃ c ∈ cmds, c.launches? = some a := by
  rw [Lifecycle.run hs cmds a, ← List.mem_filterMap]
  split <;> simp_all

end

/-! ## Exclusivity -/

section

variable {s : Service}

/-- After the commands at most one application is active; and if the last of
    them launches an application, it is active and the active one of the kernel. -/
def Exclusive (s : Service) (cmds : List AppCommand) : Prop :=
  (s.runApps cmds).AtMostOneActive ∧
    ∀ before c a, cmds = before ++ [c] → c.launches? = some a →
      ((s.runApps cmds).kernel.apps a).state = .active ∧
        (s.runApps cmds).kernel.activeApp = a.toByte

/-- Launching names the active application of the kernel. -/
theorem activeApp_of_launches {c : AppCommand} {a : MkAppId} (h : c.launches? = some a) :
    (handleIncomingFrame s c.frame).1.kernel.activeApp = a.toByte := by
  rcases handle_cases s c with ⟨b, hb, hk⟩ | ⟨b, hnone, _⟩ | ⟨hnone, _⟩
  · rw [h] at hb
    obtain rfl := Option.some.inj hb
    rw [hk]
    rfl
  · rw [h] at hnone
    cases hnone
  · rw [h] at hnone
    cases hnone

/-- From ready applications, the active one is exclusive after exactly the
    commands that launch no two different applications. -/
theorem exclusive_iff (hs : s.AllReady) (cmds : List AppCommand) :
    Exclusive s cmds ↔ ∀ c ∈ cmds, ∀ d ∈ cmds, ∀ a b, c.launches? = some a →
      d.launches? = some b → a = b := by
  constructor
  · intro h c hc d hd a b ha hb
    exact h.1 a b ((active_iff hs cmds a).2 ⟨c, hc, ha⟩) ((active_iff hs cmds b).2 ⟨d, hd, hb⟩)
  · intro h
    refine ⟨fun a b ha hb => ?_, fun before c a hlast ha => ?_⟩
    · obtain ⟨c, hc, hca⟩ := (active_iff hs cmds a).1 ha
      obtain ⟨d, hd, hdb⟩ := (active_iff hs cmds b).1 hb
      exact h c hc d hd a b hca hdb
    · refine ⟨(active_iff hs cmds a).2 ⟨c, by simp [hlast], ha⟩, ?_⟩
      rw [hlast, Service.runApps_append_singleton]
      exact activeApp_of_launches ha

/-- The service after boot. -/
def Service.booted : Service := ⟨MkKernel.booted, [], false, 0, [], []⟩

theorem Service.booted_allReady : Service.booted.AllReady := MkKernel.booted_ready.2

theorem exclusive_iff_booted :
    Exclusive Service.booted [.launch .retroGames, .exit .retroGames, .launch .retroGames] :=
  (exclusive_iff Service.booted_allReady _).2 (by decide +kernel)

/-- Two launches after boot leave two applications active. -/
theorem two_active_after_launches : ¬Exclusive Service.booted
    [.launch .bleHid, .launch .wifiDiagnostics] := by
  intro h
  have := h.1 .bleHid .wifiDiagnostics (by decide +kernel) (by decide +kernel)
  cases this

/-! ## Leaving -/

/-- An application is ready, and a launch of it would be accepted. -/
def Left (s : Service) (a : MkAppId) : Prop :=
  (s.kernel.apps a).state = .ready ∧ (s.kernel.mkAppTransition a .active).2.1 = .ok

/-- From ready applications, leaving one works after exactly the commands that
    do not launch it. -/
theorem left_iff (hs : s.AllReady) (cmds : List AppCommand) {c : AppCommand} {a : MkAppId}
    (hc : c.exits? = some a) :
    Left (s.runApps (cmds ++ [c])) a ↔ ∀ d ∈ cmds, d.launches? ≠ some a := by
  have hstate := Lifecycle.run hs (cmds ++ [c]) a
  -- A command that leaves an application launches none.
  have hnone : c.launches? = none := by
    rcases handle_cases s c with ⟨b, hb, _⟩ | ⟨b, hnone, _⟩ | ⟨hnone, _⟩
    · rw [AppCommand.launches?] at hb
      rw [AppCommand.exits?] at hc
      split at hc
      · simp_all
      · cases hc
    · exact hnone
    · exact hnone
  have hmem : a ∈ (cmds ++ [c]).filterMap AppCommand.launches? ↔
      ∃ d ∈ cmds, d.launches? = some a := by
    simp [hnone]
  constructor
  · rintro ⟨hready, _⟩ d hd hda
    rw [hstate, if_pos (hmem.2 ⟨d, hd, hda⟩)] at hready
    cases hready
  · intro h
    have hready : ((s.runApps (cmds ++ [c])).kernel.apps a).state = .ready := by
      rw [hstate, if_neg fun hin => ?_]
      obtain ⟨d, hd, hda⟩ := hmem.1 hin
      exact h d hd hda
    refine ⟨hready, ?_⟩
    rw [MkKernel.mkAppTransition_of_valid (by rw [hready]; decide)]

theorem left_iff_booted :
    Left (Service.booted.runApps [.launch .bleHid, .exit .retroGames]) .retroGames :=
  (left_iff Service.booted_allReady [.launch .bleHid] (by decide +kernel)).2 (by decide +kernel)

/-- An application launched after boot stays active when it is left. -/
theorem active_after_exit : ((Service.booted.runApps
      [.launch .retroGames, .exit .retroGames]).kernel.apps .retroGames).state = .active ∧
    ¬Left (Service.booted.runApps [.launch .retroGames, .exit .retroGames]) .retroGames := by
  constructor
  · decide +kernel
  · rintro ⟨hready, _⟩
    revert hready
    decide +kernel

end

end SliverOS
