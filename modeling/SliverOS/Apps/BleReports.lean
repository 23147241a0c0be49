import SliverOS.Apps.BleHid
import SliverOS.Apps.MacroText
import SliverOS.Streams.Run

/-!
# Reports of the BLE HID application

The keyboard presses a key in the state `parse` and releases it at the next tick, in the state
`release`. The calls that set the state without a look at it leave a key pressed if they come
in between: the next key is pressed with no release before it, or the application is stopped
with the key down.

* `noStuckKeys_iff`: no key is left pressed in a run in which no call comes in between, and if
  the run ends with `ble_hid_stop`, only in such a run.
-/

namespace SliverOS

open Streams

/-- A report for the host, with keys or without any. -/
inductive Report
  | press (modifier keycode : UInt8)
  | release
  deriving DecidableEq

/-- Every press has a release after it. -/
def Released (reports : List Report) : Prop :=
  ∀ before modifier keycode after,
    reports = before ++ .press modifier keycode :: after → .release ∈ after

/-- Every press comes with all the presses before it released. -/
def Alternates (reports : List Report) : Prop :=
  ∀ before modifier keycode, before ++ [.press modifier keycode] <+: reports → Released before

section Released

variable {reports : List Report}

theorem released_nil : Released [] := by
  intro before modifier keycode after heq
  simp at heq

theorem released_append_release : Released (reports ++ [.release]) := by
  intro before modifier keycode after heq
  rcases List.eq_nil_or_concat after with rfl | ⟨after, r, rfl⟩
  · obtain ⟨-, hpress⟩ := List.append_inj' heq rfl
    cases hpress
  · rw [List.concat_eq_append, ← List.cons_append, ← List.append_assoc] at heq
    obtain ⟨-, hr⟩ := List.append_inj' heq rfl
    cases hr
    simp

theorem not_released_append_press (modifier keycode : UInt8) :
    ¬Released (reports ++ [.press modifier keycode]) :=
  fun h => List.not_mem_nil (h reports modifier keycode [] rfl)

theorem alternates_nil : Alternates [] := by
  intro before modifier keycode hpre
  simp at hpre

theorem alternates_concat (r : Report) : Alternates (reports ++ [r]) ↔ Alternates reports ∧
    ((∃ modifier keycode, r = .press modifier keycode) → Released reports) := by
  constructor
  · intro h
    refine ⟨fun before modifier keycode hpre =>
      h before modifier keycode (hpre.trans (List.prefix_append _ _)), ?_⟩
    rintro ⟨modifier, keycode, rfl⟩
    exact h reports modifier keycode (List.prefix_refl _)
  · rintro ⟨h, hr⟩ before modifier keycode hpre
    rcases List.prefix_concat_iff.1 hpre with heq | hpre
    · obtain ⟨rfl, hpress⟩ := List.append_inj' heq rfl
      exact hr ⟨modifier, keycode, (List.singleton_inj.1 hpress).symm⟩
    · exact h before modifier keycode hpre

end Released

namespace BleHid

variable {σ : Type}

/-- The report that an effect is. -/
def Effect.report : Effect → Option Report
  | .halBleSendKey modifier keycode => some (.press modifier keycode)
  | .halBleSendRelease => some .release
  | _ => none

theorem filterMap_closeFile (s : BleHid σ) : s.closeFile.1.filterMap Effect.report = [] := by
  rw [closeFile]
  split_ifs <;> rfl

/-- An event presses a key, to be released next, or reports nothing. -/
theorem reports_handleMacroEvent (s : BleHid σ) (evt : MacroEvent) (hstate : s.state = .parse) :
    (∃ modifier keycode, (s.handleMacroEvent evt).1.filterMap Effect.report =
        [.press modifier keycode] ∧ (s.handleMacroEvent evt).2.state = .release) ∨
      (s.handleMacroEvent evt).1.filterMap Effect.report = [] ∧
        (s.handleMacroEvent evt).2.state ≠ .release := by
  rw [handleMacroEvent]
  split_ifs
  · exact .inr ⟨filterMap_closeFile s, by simp⟩
  · exact .inl ⟨evt.modifier, evt.keycode, rfl, rfl⟩
  · exact .inr ⟨rfl, by simp [hstate]⟩
  · exact .inr ⟨rfl, by simp⟩
  · exact .inr ⟨rfl, by simp [hstate]⟩

theorem state_waitTick_ne {s : BleHid σ} {state : BleAppInternalState}
    (hstate : s.state ≠ .release) (hnext : state ≠ .release) :
    (s.waitTick state).state ≠ .release := by
  rcases (waitTick_cases s state).2.1 with heq | heq
  · rwa [heq]
  · rwa [heq]

/-- A call that does not come between a press and its release: in the state `release`, it does
    not set the state, but for a task. -/
def Keeps (s : BleHid σ) : Call σ → Prop
  | .bleHidInit => s.state ≠ .release
  | .bleHidStart advertising => advertising = .ok → s.state ≠ .release
  | .bleHidStop => s.state ≠ .release
  | .bleHidTask .. => True
  | .bleHidHandleEvent type => type = .bleConnected ∨ type = .bleDisconnected → s.state ≠ .release

theorem keeps_of_ne {s : BleHid σ} (h : s.state ≠ .release) (c : Call σ) : Keeps s c := by
  cases c with
  | bleHidInit => exact h
  | bleHidStart advertising => exact fun _ => h
  | bleHidStop => exact h
  | bleHidTask => trivial
  | bleHidHandleEvent type => exact fun _ => h

variable [MacroSource σ]

/-- The variables after a call. -/
def next (s : BleHid σ) (c : Call σ) : BleHid σ := (s.exec c).2

/-- The reports handed to `hal_ble` at a call. -/
def reports (s : BleHid σ) (c : Call σ) : List Report := (s.exec c).1.filterMap Effect.report

/-- The reports of a run. -/
def stream (s : BleHid σ) (run : List (Call σ)) : List Report := collect next reports s run

/-- Before every press of a run, and at every return of `ble_hid_stop`, the presses are all
    released. -/
structure NoStuckKeys (s : BleHid σ) (run : List (Call σ)) : Prop where
  press : Alternates (stream s run)
  stop : ∀ before, before ++ [.bleHidStop] <+: run → Released (stream s (before ++ [.bleHidStop]))

theorem reports_bleHidStop (s : BleHid σ) : reports s .bleHidStop = [] := by
  rw [reports, exec, bleHidStop, List.filterMap_append, filterMap_closeFile]
  rfl

/-- What a call reports: a key is pressed to be released next; a release is for the key
    pressed; and what else is called reports nothing, and leaves a key pressed with no release
    to follow exactly if it comes in between. -/
theorem reports_cases (s : BleHid σ) (c : Call σ) :
    (∃ modifier keycode, reports s c = [.press modifier keycode] ∧ s.state ≠ .release ∧
        (next s c).state = .release) ∨
      reports s c = [.release] ∧ s.state = .release ∧ (next s c).state ≠ .release ∧ Keeps s c ∨
      reports s c = [] ∧
        ((next s c).state = .release ↔ s.state = .release ∧ Keeps s c) := by
  cases c with
  | bleHidInit => exact .inr (.inr ⟨rfl, by simp [next, exec, bleHidInit, Keeps]⟩)
  | bleHidStart advertising =>
    refine .inr (.inr ⟨rfl, ?_⟩)
    by_cases hok : advertising = .ok
    · simp [next, exec, bleHidStart, Keeps, hok]
    · simp [next, exec, bleHidStart, Keeps, hok]
  | bleHidStop =>
    exact .inr (.inr ⟨reports_bleHidStop s, by simp [next, exec, bleHidStop, Keeps]⟩)
  | bleHidTask connected opened =>
    obtain ⟨state, parser, macroFd, delayRemainingTicks⟩ := s
    cases state with
    | uninit => exact .inr (.inr ⟨rfl, by simp [next, exec, bleHidTask]⟩)
    | waitConnection =>
      exact .inr (.inr ⟨rfl, by cases connected <;> simp [next, exec, bleHidTask]⟩)
    | openFile =>
      cases opened with
      | ok file => exact .inr (.inr ⟨rfl, by simp [next, exec, bleHidTask]⟩)
      | error => exact .inr (.inr ⟨rfl, by simp [next, exec, bleHidTask]⟩)
    | parse =>
      rcases reports_handleMacroEvent
        ⟨.parse, parser.macroParserNextEvent.2, macroFd, delayRemainingTicks⟩
        parser.macroParserNextEvent.1 rfl with ⟨modifier, keycode, hreports, hrel⟩ | ⟨hnone, hne⟩
      · exact .inl ⟨modifier, keycode, hreports, by simp, hrel⟩
      · exact .inr (.inr ⟨hnone, iff_of_false hne (by simp)⟩)
    | release => exact .inr (.inl ⟨rfl, rfl, by simp [next, exec, bleHidTask], trivial⟩)
    | delay =>
      exact .inr (.inr ⟨rfl, iff_of_false (state_waitTick_ne (by simp) (by simp)) (by simp)⟩)
    | cooldown =>
      exact .inr (.inr ⟨rfl, iff_of_false (state_waitTick_ne (by simp) (by simp)) (by simp)⟩)
  | bleHidHandleEvent type =>
    refine .inr (.inr ⟨rfl, ?_⟩)
    rw [next, exec, bleHidHandleEvent, Keeps]
    split_ifs with hconnected hdisconnected
    · simp [hconnected]
    · simp [hdisconnected]
    · simp [hconnected, hdisconnected]

/-! ## Runs -/

variable {s : BleHid σ} {run : List (Call σ)}

theorem stream_concat (c : Call σ) :
    stream s (run ++ [c]) = stream s run ++ reports (run.foldl next s) c :=
  collect_concat c

theorem noStuckKeys_nil : NoStuckKeys s [] := by
  refine ⟨alternates_nil, ?_⟩
  intro before hpre
  simp at hpre

/-- A call is to keep to what is said of presses, and `ble_hid_stop` also to find them
    released. -/
theorem noStuckKeys_concat (c : Call σ) : NoStuckKeys s (run ++ [c]) ↔
    NoStuckKeys s run ∧ Alternates (stream s run ++ reports (run.foldl next s) c) ∧
      (c = .bleHidStop → Released (stream s run)) := by
  constructor
  · intro h
    have hpress := h.press
    rw [stream_concat] at hpress
    refine ⟨⟨fun before modifier keycode hpre => hpress before modifier keycode
      (hpre.trans (List.prefix_append _ _)), fun before hpre =>
        h.stop before (hpre.trans (List.prefix_append _ _))⟩, hpress, ?_⟩
    rintro rfl
    have hstop := h.stop run (List.prefix_refl _)
    rwa [stream_concat, reports_bleHidStop, List.append_nil] at hstop
  · rintro ⟨hrun, hpress, hstop⟩
    refine ⟨by rwa [stream_concat], fun before hpre => ?_⟩
    rcases List.prefix_concat_iff.1 hpre with heq | hpre
    · obtain ⟨rfl, hc⟩ := List.append_inj' heq rfl
      rw [stream_concat, reports_bleHidStop, List.append_nil]
      exact hstop (List.singleton_inj.1 hc).symm
    · exact hrun.stop before hpre

/-- As long as no call comes in between, a key is left pressed exactly in the state
    `release`. -/
theorem noStuckKeys_of_keeps (hs : s.state ≠ .release) (h : Throughout next Keeps s run) :
    NoStuckKeys s run ∧ ((run.foldl next s).state = .release ↔ ¬Released (stream s run)) := by
  induction run using List.reverseRecOn with
  | nil => exact ⟨noStuckKeys_nil, iff_of_false hs (not_not.2 released_nil)⟩
  | append_singleton run c ih =>
    rw [throughout_concat] at h
    obtain ⟨hrun, hstate⟩ := ih h.1
    have hstop : c = .bleHidStop → Released (stream s run) := by
      rintro rfl
      exact not_not.1 fun hrel => h.2 (hstate.2 hrel)
    rw [noStuckKeys_concat, List.foldl_concat, stream_concat]
    rcases reports_cases (run.foldl next s) c with ⟨modifier, keycode, hreports, hne, hrel⟩ |
      ⟨hreports, hrel, hne, -⟩ | ⟨hreports, hnone⟩
    · rw [hreports, alternates_concat]
      exact ⟨⟨hrun, ⟨hrun.press, fun _ => not_not.1 fun hlast => hne (hstate.2 hlast)⟩, hstop⟩,
        iff_of_true hrel (not_released_append_press modifier keycode)⟩
    · rw [hreports, alternates_concat]
      refine ⟨⟨hrun, ⟨hrun.press, ?_⟩, hstop⟩,
        iff_of_false hne (not_not.2 released_append_release)⟩
      simp
    · rw [hreports, List.append_nil, hnone, and_iff_left h.2]
      exact ⟨⟨hrun, hrun.press, hstop⟩, hstate⟩

/-- The first call that comes in between leaves a key pressed, and it stays so. -/
theorem keeps_or_of_noStuckKeys (hs : s.state ≠ .release) (h : NoStuckKeys s run) :
    Throughout next Keeps s run ∨
      ¬Released (stream s run) ∧ (run.foldl next s).state ≠ .release := by
  induction run using List.reverseRecOn with
  | nil => exact .inl throughout_nil
  | append_singleton run c ih =>
    rw [noStuckKeys_concat] at h
    obtain ⟨hrun, hpress, -⟩ := h
    rw [throughout_concat, List.foldl_concat, stream_concat]
    rcases reports_cases (run.foldl next s) c with ⟨modifier, keycode, hreports, hne, hrel⟩ |
      ⟨hreports, hrel, hne, hkeeps⟩ | ⟨hreports, hnone⟩
    · -- All is released before a press.
      rw [hreports, alternates_concat] at hpress
      have hreleased := hpress.2 ⟨modifier, keycode, rfl⟩
      exact .inl ⟨(ih hrun).resolve_right fun hlast => hlast.1 hreleased, keeps_of_ne hne c⟩
    · exact .inl ⟨(ih hrun).resolve_right fun hlast => hlast.2 hrel, hkeeps⟩
    · rw [hreports, List.append_nil]
      rcases ih hrun with hbefore | ⟨hlast, hne⟩
      · by_cases hkeeps : Keeps (run.foldl next s) c
        · exact .inl ⟨hbefore, hkeeps⟩
        · have hrel := not_not.1 fun hne => hkeeps (keeps_of_ne hne c)
          exact .inr ⟨(noStuckKeys_of_keeps hs hbefore).2.1 hrel,
            fun hnext => hkeeps (hnone.1 hnext).2⟩
      · exact .inr ⟨hlast, fun hnext => hne (hnone.1 hnext).1⟩

/-- No key is left pressed in a run in which no call comes between a press and its release, and
    a run that ends with `ble_hid_stop` has to be one. -/
theorem noStuckKeys_iff (parser : MacroParser σ) (run : List (Call σ)) :
    (Throughout next Keeps (zero parser) run → NoStuckKeys (zero parser) run) ∧
      (NoStuckKeys (zero parser) (run ++ [.bleHidStop]) ↔
        Throughout next Keeps (zero parser) (run ++ [.bleHidStop])) := by
  have hzero : (zero parser).state ≠ .release := by simp [zero]
  refine ⟨fun h => (noStuckKeys_of_keeps hzero h).1, fun h => ?_,
    fun h => (noStuckKeys_of_keeps hzero h).1⟩
  rcases keeps_or_of_noStuckKeys hzero h with hkeeps | ⟨hlast, -⟩
  · exact hkeeps
  · -- The application is stopped with all released.
    exact absurd (h.stop run (List.prefix_refl _)) hlast

/-- A macro that presses Enter, and is stopped before the next tick. -/
theorem key_stuck : ¬NoStuckKeys (zero (macroParserInit (ascii "ENTER")))
    [.bleHidStart .ok, .bleHidTask true (.error .notFound),
      .bleHidTask true (.ok (0, ascii "ENTER")), .bleHidTask true (.error .notFound),
      .bleHidStop] := by
  intro h
  obtain ⟨p', heq, -⟩ := MacroParser.macroParserNextEvent_of_cons
    (p := macroParserInit (ascii "ENTER")) (Nat.le_refl _)
    (show _ = 0x45 :: ascii "NTER" by decide)
  have hpress : reports ⟨.parse, macroParserInit (ascii "ENTER"), 0, 0⟩
      (.bleHidTask true (.error .notFound)) = [.press 0 0x28] := by
    have hevent : reports ⟨.parse, macroParserInit (ascii "ENTER"), 0, 0⟩
        (.bleHidTask true (.error .notFound)) = (handleMacroEvent
          ⟨.parse, (macroParserInit (ascii "ENTER")).macroParserNextEvent.2, 0, 0⟩
          (macroParserInit (ascii "ENTER")).macroParserNextEvent.1).1.filterMap Effect.report := rfl
    rw [hevent, heq]
    rfl
  have hstop := h.stop [.bleHidStart .ok, .bleHidTask true (.error .notFound),
      .bleHidTask true (.ok (0, ascii "ENTER")), .bleHidTask true (.error .notFound)]
      (List.prefix_refl _)
  rw [stream_concat, reports_bleHidStop, List.append_nil] at hstop
  have hstream : stream (zero (macroParserInit (ascii "ENTER"))) [.bleHidStart .ok,
      .bleHidTask true (.error .notFound), .bleHidTask true (.ok (0, ascii "ENTER")),
      .bleHidTask true (.error .notFound)] = reports ⟨.parse, macroParserInit (ascii "ENTER"), 0, 0⟩
        (.bleHidTask true (.error .notFound)) := List.append_nil _
  rw [hstream, hpress] at hstop
  have hpressed : ¬Released ([] ++ [.press 0 0x28]) := not_released_append_press 0 0x28
  exact hpressed hstop

end BleHid

end SliverOS
