import SliverOS.Apps.BleReports
import SliverOS.Apps.MacroDelays

/-!
# What the BLE keyboard types

The application of `os/apps/ble_hid/ble_hid.c` on the driver of `os/hal/hal_ble.c`. In a build for
tests on a host, the keyboard is connected while it advertises; in one for the device, while
`s_ble_connected` is set, which nothing in the driver does. The other side has the reports that the
driver transmits, and reads a text off them (`hostText`).

The reports of the file that is open and those that are still to come from it (`BleHid.toType`)
make up those of its macro (`typed`), as long as nothing but tasks comes in between.

* `types_parts`: in any run, what is received comes from the files that were opened, one after the
  other, of each of them the reports up to some point;
* `types_all`: in a run in which the files are not interrupted, what is received and what is still
  to be typed is all of them;
* `nothing_received`: in no run of the build for the device is anything received.
-/

namespace SliverOS

open Streams

/-! ## Macros -/

/-- The reports for an event of a macro: a key is pressed and released. -/
def MacroEvent.strokes (e : MacroEvent) : List Report :=
  if e.type ≠ .delay ∧ e.keycode ≠ 0 then [.press e.modifier e.keycode, .release] else []

/-- The reports for a macro text. -/
def typed (text : List UInt8) : List Report := (macroEvents text).flatMap MacroEvent.strokes

/-- The character that a key is for, on the other side: a letter, with or without a shift key,
    the key of a line, or that of a space. -/
def hostKey (modifier keycode : UInt8) : Option UInt8 :=
  if 0x04 ≤ keycode ∧ keycode ≤ 0x1D then
    some ((if modifier &&& 0x22 = 0 then 0x61 else 0x41) + (keycode - 0x04))
  else if keycode = 0x28 then some newline
  else if keycode = 0x2C then some 0x20
  else none

/-- The character of a report. -/
def Report.host : Report → Option UInt8
  | .press modifier keycode => hostKey modifier keycode
  | .release => none

/-- The text that is read off reports. -/
def hostText (reports : List Report) : List UInt8 := reports.filterMap Report.host

/-- The text for an event of a macro: a letter or a space itself, and a new line for what ends
    one. There are no keys for the other characters. -/
def MacroEvent.text (e : MacroEvent) : List UInt8 :=
  if e.type = .enter then [newline]
  else if e.type ≠ .stringChar then []
  else if isEol e.ch then [newline]
  else if e.ch = 0x20 ∨ 0x61 ≤ e.ch ∧ e.ch ≤ 0x7A ∨ 0x41 ≤ e.ch ∧ e.ch ≤ 0x5A then [e.ch]
  else []

/-- The text that a macro is for. -/
def macroText (text : List UInt8) : List UInt8 := (macroEvents text).flatMap MacroEvent.text

section Macros

variable {e : MacroEvent} {first : UInt8} {text : List UInt8}

/-- An event of a macro is a character, a delay or the end of a line. -/
inductive MacroEvent.Written : MacroEvent → Prop
  | stringChar (c : UInt8) : Written (.stringChar c)
  | delay (num : List UInt8) : Written (.delay num)
  | enter : Written .enter

theorem written_of_mem_command (h : e ∈ (command first text).1) : e.Written := by
  rw [command, wordCommand] at h
  split_ifs at h
  · obtain ⟨c, -, rfl⟩ := List.mem_map.1 h
    exact .stringChar c
  · rw [delayCommand] at h
    split at h
    · rw [List.mem_singleton.1 h]
      exact .delay _
    · rw [List.mem_singleton.1 h]
      exact .delay _
  · rw [List.mem_singleton.1 h]
    exact .enter
  · cases h

theorem written_of_mem (h : e ∈ macroEvents text) : e.Written := by
  induction text using macroEvents.induct with
  | case1 text hnil =>
    rw [macroEvents_of_nil hnil] at h
    cases h
  | case2 text first rest hcons ih =>
    rw [macroEvents_of_cons hcons] at h
    exact (List.mem_append.1 h).elim written_of_mem_command ih

/-- The keys of an event are read as its text. -/
theorem MacroEvent.Written.host (h : e.Written) : hostText e.strokes = e.text := by
  cases h with
  | stringChar c =>
    have hall : ∀ n < 256, hostText (MacroEvent.stringChar (UInt8.ofNat n)).strokes =
        (MacroEvent.stringChar (UInt8.ofNat n)).text := by decide +kernel
    have hc := hall c.toNat c.toNat_lt
    rwa [UInt8.ofNat_toNat] at hc
  | delay num => rfl
  | enter => rfl

end Macros

/-! ## The application -/

/-- The states in which a file is read, or is going to be opened at the next task. -/
def BleAppInternalState.Busy (state : BleAppInternalState) : Prop :=
  state.Reading ∨ state = .openFile

instance (state : BleAppInternalState) : Decidable state.Busy :=
  inferInstanceAs (Decidable (_ ∨ _))

theorem not_busy_waitConnection : ¬BleAppInternalState.waitConnection.Busy := by decide

theorem not_busy_cooldown : ¬BleAppInternalState.cooldown.Busy := by decide

namespace BleHid

variable {σ : Type} {s : BleHid σ} {c : Call σ}

/-- An event that does nothing is passed over. -/
theorem handleMacroEvent_of_not_visible {e : MacroEvent} (heof : e.type ≠ .eof)
    (he : ¬e.Visible) : s.handleMacroEvent e = ([], s) := by
  have hnone : e.type = .none := not_not.1 fun hne => he ⟨heof, hne⟩
  rw [handleMacroEvent]
  simp [hnone]

theorem handleMacroEvent_of_eof {e : MacroEvent} (heof : e.type = .eof) :
    (s.handleMacroEvent e).1.filterMap Effect.report = [] ∧
      (s.handleMacroEvent e).2.state = .cooldown := by
  rw [handleMacroEvent, if_pos (.inl heof)]
  exact ⟨filterMap_closeFile s, rfl⟩

theorem not_reading_waitTick {state : BleAppInternalState} (hs : ¬s.state.Reading)
    (hnext : ¬state.Reading) : ¬(s.waitTick state).state.Reading := by
  rcases (waitTick_cases s state).2.1 with heq | heq
  · rwa [heq]
  · rwa [heq]

variable [MacroSource σ]

/-- The reports still to come from the file that is read. -/
def toType (s : BleHid σ) : List Report :=
  match s.state with
  | .parse => s.parser.remaining.flatMap MacroEvent.strokes
  | .release => .release :: s.parser.remaining.flatMap MacroEvent.strokes
  | .delay => s.parser.remaining.flatMap MacroEvent.strokes
  | _ => []

theorem toType_of_not_reading (h : ¬s.state.Reading) : s.toType = [] := by
  rw [toType]
  cases hstate : s.state with
  | parse => exact absurd (.inl hstate) h
  | release => exact absurd (.inr (.inl hstate)) h
  | delay => exact absurd (.inr (.inr hstate)) h
  | _ => rfl

/-- The file that is opened by a call. -/
def openings (s : BleHid σ) : Call σ → List σ
  | .bleHidTask _ (.ok (_, file)) => if s.state = .openFile then [file] else []
  | _ => []

/-- A call that is not a task. -/
def Call.Interrupts : Call σ → Prop
  | .bleHidTask .. => False
  | _ => True

/-- What a call does to what is to be typed: it types some of it; or it opens a file, with all of
    it to be typed; or it leaves no file to read. Only a call that is not a task ends a file before
    its end. -/
inductive Types (s s' : BleHid σ) (c : Call σ) (reports : List Report) : Prop
  | types (hfile : s.state.Reading) (hopens : s.openings c = [])
      (hreports : reports ++ s'.toType = s.toType)
  | opens (file : σ) (hidle : ¬s.state.Reading) (hopens : s.openings c = [file])
      (hreports : reports = []) (hfile : s'.state.Reading)
      (htext : s'.toType = typed (MacroSource.rest file))
  | idle (hopens : s.openings c = []) (hreports : reports = []) (hidle : ¬s'.state.Reading)
      (hends : s.state.Reading → c.Interrupts)

theorem written_of_mem_remaining {p : MacroParser σ} {e : MacroEvent} (h : e ∈ p.remaining) :
    e.Written := by
  obtain h | h := List.mem_append.1 h
  · obtain ⟨c, -, rfl⟩ := List.mem_map.1 h
    exact .stringChar c
  · exact written_of_mem h

/-- An event that is written presses its key, to be released next, or waits. -/
theorem handleMacroEvent_of_written {e : MacroEvent} (hstate : s.state = .parse) (he : e.Written) :
    (s.handleMacroEvent e).1.filterMap Effect.report ++ (s.handleMacroEvent e).2.toType =
      e.strokes ++ s.toType := by
  have htype : s.toType = s.parser.remaining.flatMap MacroEvent.strokes := by rw [toType, hstate]
  rw [htype, handleMacroEvent]
  cases he with
  | stringChar ch =>
    by_cases hkey : (MacroEvent.stringChar ch).keycode = 0
    · have hstrokes : (MacroEvent.stringChar ch).strokes = [] := by
        rw [MacroEvent.strokes, if_neg fun h => h.2 hkey]
      rw [if_neg (by simp [MacroEvent.stringChar]), if_pos (.inl rfl), if_neg (not_not.2 hkey),
        hstrokes, htype]
      rfl
    · have hstrokes : (MacroEvent.stringChar ch).strokes =
          [.press (MacroEvent.stringChar ch).modifier (MacroEvent.stringChar ch).keycode,
            .release] := by
        rw [MacroEvent.strokes, if_pos ⟨by simp [MacroEvent.stringChar], hkey⟩]
      rw [if_neg (by simp [MacroEvent.stringChar]), if_pos (.inl rfl), if_pos hkey, hstrokes]
      rfl
  | delay num => rfl
  | enter => rfl

theorem types_handleMacroEvent {p : MacroParser σ} (hstate : s.state = .parse)
    (hparser : s.parser = p.macroParserNextEvent.2) :
    (s.handleMacroEvent p.macroParserNextEvent.1).1.filterMap Effect.report ++
        (s.handleMacroEvent p.macroParserNextEvent.1).2.toType =
      p.remaining.flatMap MacroEvent.strokes := by
  obtain ⟨e, p', heq, ⟨heof, hnil, -⟩ | ⟨hne, hcons, -⟩⟩ := p.macroParserNextEvent_spec
  · obtain ⟨hreports, hcool⟩ := handleMacroEvent_of_eof (s := s) heof
    rw [heq, hnil, hreports, toType, hcool]
    rfl
  · rw [heq] at hparser ⊢
    have htype : s.toType = p'.remaining.flatMap MacroEvent.strokes := by
      rw [toType, hstate, hparser]
    by_cases hvisible : e.Visible
    · have hmem : e ∈ p.remaining := by
        rw [hcons, List.filter_cons_of_pos (by simpa using hvisible)]
        exact .head _
      rw [handleMacroEvent_of_written hstate (written_of_mem_remaining hmem), htype, hcons,
        List.filter_cons_of_pos (by simpa using hvisible)]
      rfl
    · rw [handleMacroEvent_of_not_visible hne hvisible, hcons,
        List.filter_cons_of_neg (by simpa using hvisible)]
      exact htype

theorem types_task_of_parse (h : s.state = .parse) (connected : Bool)
    (opened : Except MkStatus (Fin 8 × σ)) :
    reports s (.bleHidTask connected opened) ++ (next s (.bleHidTask connected opened)).toType =
      s.toType := by
  have htask : s.bleHidTask connected opened = handleMacroEvent
      { s with parser := s.parser.macroParserNextEvent.2 } s.parser.macroParserNextEvent.1 := by
    simp only [bleHidTask, h]
  have htype : s.toType = s.parser.remaining.flatMap MacroEvent.strokes := by rw [toType, h]
  rw [reports, next, exec, htask, htype]
  exact types_handleMacroEvent h rfl

theorem toType_waitTick (h : s.state = .delay) : (s.waitTick .parse).toType = s.toType := by
  rw [waitTick]
  split_ifs
  · rfl
  · simp only [toType, h]

/-- A task without a file to read before it and after it, nor reports. -/
theorem types_task_of_idle {effects : List Effect} {s' : BleHid σ} {connected : Bool}
    {opened : Except MkStatus (Fin 8 × σ)} (htask : s.bleHidTask connected opened = (effects, s'))
    (hidle : ¬s.state.Reading) (hopens : s.openings (.bleHidTask connected opened) = [])
    (hreports : effects.filterMap Effect.report = []) (hidle' : ¬s'.state.Reading) :
    Types s (next s (.bleHidTask connected opened)) (.bleHidTask connected opened)
      (reports s (.bleHidTask connected opened)) := by
  have hexec : s.exec (.bleHidTask connected opened) = (effects, s') := htask
  refine .idle hopens ?_ ?_ fun hfile => absurd hfile hidle
  · rw [reports, hexec]
    exact hreports
  · rw [next, hexec]
    exact hidle'

/-- What a task does to what is to be typed. -/
theorem types_task (s : BleHid σ) (connected : Bool) (opened : Except MkStatus (Fin 8 × σ)) :
    Types s (next s (.bleHidTask connected opened)) (.bleHidTask connected opened)
      (reports s (.bleHidTask connected opened)) := by
  have hopens (hne : s.state ≠ .openFile) : s.openings (.bleHidTask connected opened) = [] := by
    cases opened with
    | ok reply => exact if_neg hne
    | error e => rfl
  cases hstate : s.state with
  | uninit =>
    have htask : s.bleHidTask connected opened = ([], { s with state := .waitConnection }) := by
      simp only [bleHidTask, hstate]
    exact types_task_of_idle htask (hstate ▸ not_reading_uninit) (hopens (by simp [hstate])) rfl
      not_reading_waitConnection
  | waitConnection =>
    have htask : s.bleHidTask connected opened =
        ([], if connected then { s with state := .openFile } else s) := by
      simp only [bleHidTask, hstate]
    refine types_task_of_idle htask (hstate ▸ not_reading_waitConnection)
      (hopens (by simp [hstate])) rfl ?_
    cases connected with
    | true => exact not_reading_openFile
    | false => exact hstate ▸ not_reading_waitConnection
  | openFile =>
    cases opened with
    | ok reply =>
      obtain ⟨fd, file⟩ := reply
      have htask : s.bleHidTask connected (.ok (fd, file)) = ([openMacro], { s with
          macroFd := (fd : ℕ)
          parser := macroParserInit file
          state := .parse }) := by
        simp only [bleHidTask, hstate]
      refine .opens file (hstate ▸ not_reading_openFile) (if_pos hstate) ?_ ?_ ?_
      · rw [reports, exec, htask]
        rfl
      · rw [next, exec, htask]
        exact .inl rfl
      · rw [next, exec, htask]
        rfl
    | error e =>
      have htask : s.bleHidTask connected (.error e) =
          ([openMacro], { s with delayRemainingTicks := 50, state := .cooldown }) := by
        simp only [bleHidTask, hstate]
      exact types_task_of_idle htask (hstate ▸ not_reading_openFile) rfl rfl not_reading_cooldown
  | parse =>
    exact .types (.inl hstate) (hopens (by simp [hstate]))
      (types_task_of_parse hstate connected opened)
  | release =>
    have htask : s.bleHidTask connected opened =
        ([.halBleSendRelease], { s with state := .parse }) := by
      simp only [bleHidTask, hstate]
    refine .types (.inr (.inl hstate)) (hopens (by simp [hstate])) ?_
    rw [reports, next, exec, htask]
    simp only [toType, hstate]
    rfl
  | delay =>
    have htask : s.bleHidTask connected opened = ([], s.waitTick .parse) := by
      simp only [bleHidTask, hstate]
    refine .types (.inr (.inr hstate)) (hopens (by simp [hstate])) ?_
    rw [reports, next, exec, htask, toType_waitTick hstate]
    rfl
  | cooldown =>
    have htask : s.bleHidTask connected opened = ([], s.waitTick .waitConnection) := by
      simp only [bleHidTask, hstate]
    have hidle : ¬s.state.Reading := hstate ▸ not_reading_cooldown
    exact types_task_of_idle htask hidle (hopens (by simp [hstate])) rfl
      (not_reading_waitTick hidle not_reading_waitConnection)

/-- What a call does to what is to be typed. -/
theorem types_next (s : BleHid σ) (c : Call σ) : Types s (next s c) c (reports s c) := by
  -- What leaves the state alone, leaves what is to be typed.
  have hkept (hopens : s.openings c = []) (hreports : reports s c = [])
      (hnext : next s c = s) : Types s (next s c) c (reports s c) := by
    by_cases hfile : s.state.Reading
    · exact .types hfile hopens (by rw [hreports, hnext]; rfl)
    · exact .idle hopens hreports (by rwa [hnext]) fun h => absurd h hfile
  cases c with
  | bleHidInit => exact .idle rfl rfl not_reading_waitConnection fun _ => trivial
  | bleHidStart advertising =>
    by_cases hok : advertising = .ok
    · refine .idle rfl rfl ?_ fun _ => trivial
      rw [next, exec, bleHidStart, if_pos hok]
      exact not_reading_waitConnection
    · exact hkept rfl rfl (by rw [next, exec, bleHidStart, if_neg hok])
  | bleHidStop => exact .idle rfl (reports_bleHidStop s) not_reading_waitConnection fun _ => trivial
  | bleHidTask connected opened => exact types_task s connected opened
  | bleHidHandleEvent type =>
    by_cases hconnected : type = .bleConnected
    · refine .idle rfl rfl ?_ fun _ => trivial
      rw [next, exec, bleHidHandleEvent, if_pos hconnected]
      exact not_reading_openFile
    by_cases hdisconnected : type = .bleDisconnected
    · refine .idle rfl rfl ?_ fun _ => trivial
      rw [next, exec, bleHidHandleEvent, if_neg hconnected, if_pos hdisconnected]
      exact not_reading_waitConnection
    · exact hkept rfl rfl (by rw [next, exec, bleHidHandleEvent, if_neg hconnected,
        if_neg hdisconnected])

end BleHid

/-! ## The driver -/

/-- What the driver is built for. -/
inductive HalBle.Platform
  | espPlatform
  | host
deriving DecidableEq

/-- The driver: what it is built for, which does not change, and its static variables. -/
structure HalBle where
  platform : HalBle.Platform
  initialized : Bool
  connected : Bool
  advertising : Bool

namespace HalBle

/-- The driver before anything. -/
def zero (platform : Platform) : HalBle := ⟨platform, false, false, false⟩

/-- `hal_ble_init`: on the device, the calls of the Bluetooth stack may fail. -/
def halBleInit (h : HalBle) (stack : Bool) : MkStatus × HalBle :=
  (if h.platform = .espPlatform ∧ !stack then .error else .ok,
    { h with initialized := true, connected := false, advertising := false })

/-- `hal_ble_start_advertising`. -/
def halBleStartAdvertising (h : HalBle) : MkStatus × HalBle :=
  if !h.initialized then (.invalidState, h) else (.ok, { h with advertising := true })

/-- `hal_ble_stop_advertising`. -/
def halBleStopAdvertising (h : HalBle) : MkStatus × HalBle :=
  (.ok, { h with advertising := false })

/-- `hal_ble_is_connected`. -/
def halBleIsConnected (h : HalBle) : Bool :=
  match h.platform with
  | .host => h.advertising
  | .espPlatform => h.connected

theorem halBleIsConnected_halBleInit (h : HalBle) (stack : Bool) :
    (h.halBleInit stack).2.halBleIsConnected = false := by
  rw [halBleInit, halBleIsConnected]
  cases h.platform <;> rfl

/-- `hal_ble_send_report`: the status, and what is transmitted. -/
def halBleSendReport (h : HalBle) (report : Report) : MkStatus × List Report :=
  if !h.halBleIsConnected then (.busy, []) else (.ok, [report])

end HalBle

/-- The application and the driver. -/
structure BleKeyboard (σ : Type) where
  ble : HalBle
  app : BleHid σ

namespace BleKeyboard

open BleHid

variable {σ : Type}

/-- A call, of the driver at the start or of the application. To `hal_ble_init`, the Bluetooth
    stack replies `stack`; in a task, `vfs_open` replies `opened`. -/
inductive Call (σ : Type)
  | halBleInit (stack : Bool)
  | bleHidInit
  | bleHidStart
  | bleHidStop
  | bleHidTask (opened : Except MkStatus (Fin 8 × σ))
  | bleHidHandleEvent (type : MkEventType)

/-- The call of the application with the replies of the driver. -/
def Call.replied (ble : HalBle) : Call σ → Option (BleHid.Call σ)
  | .halBleInit _ => none
  | .bleHidInit => some .bleHidInit
  | .bleHidStart => some (.bleHidStart ble.halBleStartAdvertising.1)
  | .bleHidStop => some .bleHidStop
  | .bleHidTask opened => some (.bleHidTask ble.halBleIsConnected opened)
  | .bleHidHandleEvent type => some (.bleHidHandleEvent type)

/-- What a call of the application does to the driver, and what is transmitted. -/
def perform (ble : HalBle) : Effect → HalBle × List Report
  | .halBleStartAdvertising => (ble.halBleStartAdvertising.2, [])
  | .halBleStopAdvertising => (ble.halBleStopAdvertising.2, [])
  | .halBleSendKey modifier keycode => (ble, (ble.halBleSendReport (.press modifier keycode)).2)
  | .halBleSendRelease => (ble, (ble.halBleSendReport .release).2)
  | .vfsOpen .. => (ble, [])
  | .vfsClose .. => (ble, [])

/-- The driver after some effects. -/
def performed (ble : HalBle) (effects : List Effect) : HalBle :=
  effects.foldl (fun ble e => (perform ble e).1) ble

/-- The effects of a call. -/
def effects [MacroSource σ] (s : BleKeyboard σ) (c : Call σ) : List Effect :=
  (c.replied s.ble).elim [] fun c => (s.app.exec c).1

/-- The keyboard after a call. -/
def next [MacroSource σ] (s : BleKeyboard σ) : Call σ → BleKeyboard σ
  | .halBleInit stack => { s with ble := (s.ble.halBleInit stack).2 }
  | c => ⟨performed s.ble (s.effects c),
      (c.replied s.ble).elim s.app fun c => (s.app.exec c).2⟩

/-- The reports that are received of a call. -/
def received [MacroSource σ] (s : BleKeyboard σ) (c : Call σ) : List Report :=
  collect (fun ble e => (perform ble e).1) (fun ble e => (perform ble e).2) s.ble (s.effects c)

/-- The files that are opened by a call. -/
def openings (s : BleKeyboard σ) (c : Call σ) : List σ :=
  (c.replied s.ble).elim [] s.app.openings

/-! ## Transmissions -/

variable {ble : HalBle} {es : List Effect}

/-- An effect that does not start or stop the advertising. -/
def Plain (e : Effect) : Prop := e ≠ .halBleStartAdvertising ∧ e ≠ .halBleStopAdvertising

theorem perform_of_plain {e : Effect} (he : Plain e) :
    perform ble e = (ble, if ble.halBleIsConnected then e.report.toList else []) := by
  cases e with
  | halBleStartAdvertising => exact absurd rfl he.1
  | halBleStopAdvertising => exact absurd rfl he.2
  | halBleSendKey modifier keycode =>
    rw [perform, HalBle.halBleSendReport]
    cases ble.halBleIsConnected <;> rfl
  | halBleSendRelease =>
    rw [perform, HalBle.halBleSendReport]
    cases ble.halBleIsConnected <;> rfl
  | vfsOpen path flags =>
    rw [perform]
    cases ble.halBleIsConnected <;> rfl
  | vfsClose fd =>
    rw [perform]
    cases ble.halBleIsConnected <;> rfl

/-- The reports are transmitted while the keyboard is connected. -/
theorem performed_of_plain (ble : HalBle) (h : ∀ e ∈ es, Plain e) : performed ble es = ble ∧
    collect (fun ble e => (perform ble e).1) (fun ble e => (perform ble e).2) ble es =
      if ble.halBleIsConnected then es.filterMap Effect.report else [] := by
  induction es with
  | nil => exact ⟨rfl, (ite_self _).symm⟩
  | cons e es ih =>
    obtain ⟨he, hes⟩ := List.forall_mem_cons.1 h
    obtain ⟨hble, hall⟩ := ih hes
    rw [performed, List.foldl_cons, collect, perform_of_plain he]
    refine ⟨hble, ?_⟩
    rw [hall, List.filterMap_cons]
    cases ble.halBleIsConnected with
    | false => rfl
    | true => cases e.report <;> rfl

theorem plain_closeFile (s : BleHid σ) : ∀ e ∈ s.closeFile.1, Plain e := by
  rw [closeFile]
  split_ifs
  · exact List.forall_mem_singleton.2 (by simp [Plain])
  · exact List.forall_mem_nil _

theorem plain_handleMacroEvent (s : BleHid σ) (evt : MacroEvent) :
    ∀ e ∈ (s.handleMacroEvent evt).1, Plain e := by
  rw [handleMacroEvent]
  split_ifs
  · exact plain_closeFile s
  · exact List.forall_mem_singleton.2 (by simp [Plain])
  all_goals exact List.forall_mem_nil _

variable [MacroSource σ]

theorem plain_bleHidTask (s : BleHid σ) (connected : Bool)
    (opened : Except MkStatus (Fin 8 × σ)) : ∀ e ∈ (s.bleHidTask connected opened).1, Plain e := by
  rw [BleHid.bleHidTask.eq_def]
  cases s.state with
  | parse => exact plain_handleMacroEvent _ _
  | openFile => cases opened <;> exact List.forall_mem_singleton.2 (by simp [Plain, openMacro])
  | release => exact List.forall_mem_singleton.2 (by simp [Plain])
  | _ => exact List.forall_mem_nil _

/-- The advertising starts, unless the driver is not initialized. -/
theorem next_bleHidStart (s : BleKeyboard σ) :
    (s.next .bleHidStart).app.state = .waitConnection ∨ s.next .bleHidStart = s := by
  by_cases hinit : s.ble.initialized = true
  · have hok : s.ble.halBleStartAdvertising.1 = .ok := by
      simp [HalBle.halBleStartAdvertising, hinit]
    refine .inl ?_
    simp only [next, Call.replied, exec, bleHidStart, hok]
    rfl
  · have hstart : s.ble.halBleStartAdvertising = (.invalidState, s.ble) := by
      simp [HalBle.halBleStartAdvertising, hinit]
    refine .inr ?_
    simp only [next, Call.replied, effects, Option.elim_some, exec, bleHidStart, performed,
      List.foldl_cons, List.foldl_nil, perform, hstart]
    rfl

/-- What a call does: the application makes a call, and its reports are received while the keyboard
    is connected; the keyboard gets connected only by a call after which no file is read. -/
inductive Does (s : BleKeyboard σ) (c : Call σ) : Prop
  | init (stack : Bool) (hc : c = .halBleInit stack) (happ : (s.next c).app = s.app)
      (hble : (s.next c).ble.halBleIsConnected = false) (hreceived : s.received c = [])
      (hopens : s.openings c = [])
  | call (c' : BleHid.Call σ) (hc : c.replied s.ble = some c')
      (happ : (s.next c).app = BleHid.next s.app c')
      (hreceived : s.received c = if s.ble.halBleIsConnected then reports s.app c' else [])
      (hopens : s.openings c = s.app.openings c')
      (hble : (s.next c).ble = s.ble ∨ ¬(s.next c).app.state.Reading)

theorem does_next (s : BleKeyboard σ) (c : Call σ) : Does s c := by
  -- A call whose effects do not touch the advertising.
  have hplain (c' : BleHid.Call σ) (hc : c.replied s.ble = some c')
      (hnext : s.next c = ⟨performed s.ble (s.app.exec c').1, (s.app.exec c').2⟩)
      (h : ∀ e ∈ (s.app.exec c').1, Plain e) : Does s c := by
    have heffects : s.effects c = (s.app.exec c').1 := by rw [effects, hc, Option.elim_some]
    obtain ⟨hble, hall⟩ := performed_of_plain s.ble h
    rw [hble] at hnext
    refine .call c' hc ?_ ?_ ?_ (.inl ?_)
    · rw [hnext]
      rfl
    · rw [received, heffects, hall]
      rfl
    · rw [openings, hc, Option.elim_some]
    · rw [hnext]
  cases c with
  | halBleInit stack =>
    exact .init stack rfl rfl (HalBle.halBleIsConnected_halBleInit _ stack) rfl rfl
  | bleHidInit => exact hplain _ rfl rfl (List.forall_mem_nil _)
  | bleHidStart =>
    refine .call _ rfl rfl (ite_self _).symm rfl ?_
    rcases next_bleHidStart s with happ | hkept
    · rw [happ]
      exact .inr not_reading_waitConnection
    · rw [hkept]
      exact .inl rfl
  | bleHidStop =>
    refine .call _ rfl rfl ?_ rfl (.inr not_reading_waitConnection)
    have heffects : s.effects .bleHidStop = s.app.closeFile.1 ++ [.halBleStopAdvertising] := rfl
    rw [received, heffects, collect_concat, (performed_of_plain s.ble (plain_closeFile s.app)).2,
      filterMap_closeFile, reports_bleHidStop, ite_self]
    rfl
  | bleHidTask opened => exact hplain _ rfl rfl (plain_bleHidTask _ _ _)
  | bleHidHandleEvent type => exact hplain _ rfl rfl (List.forall_mem_nil _)

/-! ## Runs -/

variable {s : BleKeyboard σ} {c : Call σ} {run : List (Call σ)} {files : List σ}
  {out : List Report}

/-- What has been received comes from the files that were opened, one after the other: of each of
    them the reports up to some point, and of one that is read by a connected keyboard all but
    those still to come. -/
inductive Typing (s : BleKeyboard σ) (files : List σ) (out : List Report) : Prop
  | idle (parts : List (List Report))
      (hparts : List.Forall₂ (fun part file => part <+: typed (MacroSource.rest file)) parts files)
      (hout : out = parts.flatten) (hidle : ¬s.app.state.Reading)
  | reading (parts : List (List Report)) (before : List σ) (part : List Report) (file : σ)
      (hparts : List.Forall₂ (fun part file => part <+: typed (MacroSource.rest file)) parts before)
      (hfiles : files = before ++ [file]) (hout : out = parts.flatten ++ part)
      (hpart : part <+: typed (MacroSource.rest file))
      (hrest : s.ble.halBleIsConnected = true →
        part ++ s.app.toType = typed (MacroSource.rest file))

theorem Typing.parts (h : Typing s files out) : ∃ parts,
    List.Forall₂ (fun part file => part <+: typed (MacroSource.rest file)) parts files ∧
      out = parts.flatten := by
  cases h with
  | idle parts hparts hout => exact ⟨parts, hparts, hout⟩
  | reading parts before part file hparts hfiles hout hpart =>
    refine ⟨parts ++ [part], ?_, by rw [hout, List.flatten_append, List.flatten_singleton]⟩
    rw [hfiles]
    exact List.rel_append hparts (.cons hpart .nil)

theorem Typing.next (h : Typing s files out) (c : Call σ) :
    Typing (s.next c) (files ++ s.openings c) (out ++ s.received c) := by
  cases does_next s c with
  | init _ _ happ hble hreceived hopens =>
    rw [hreceived, hopens, List.append_nil, List.append_nil]
    cases h with
    | idle parts hparts hout hidle => exact .idle parts hparts hout (by rwa [happ])
    | reading parts before part file hparts hfiles hout hpart =>
      refine .reading parts before part file hparts hfiles hout hpart fun hconnected => ?_
      rw [hble] at hconnected
      cases hconnected
  | call c' _ happ hreceived hopens hble =>
    rw [hreceived, hopens]
    cases types_next s.app c' with
    | types hfile hnone hreports =>
      rw [hnone, List.append_nil]
      cases h with
      | idle parts hparts hout hidle => exact absurd hfile hidle
      | reading parts before part file hparts hfiles hout hpart hrest =>
        -- What is received is added to the part of the file, if the keyboard is connected.
        have hpart' : (part ++ if s.ble.halBleIsConnected then reports s.app c' else []) <+:
              typed (MacroSource.rest file) ∧
            (s.ble.halBleIsConnected = true →
              (part ++ if s.ble.halBleIsConnected then reports s.app c' else []) ++
                (s.next c).app.toType = typed (MacroSource.rest file)) := by
          cases hconnected : s.ble.halBleIsConnected with
          | false => exact ⟨by simpa using hpart, nofun⟩
          | true =>
            have hall : part ++ reports s.app c' ++ (s.next c).app.toType =
                typed (MacroSource.rest file) := by
              rw [happ, List.append_assoc, hreports, hrest hconnected]
            exact ⟨⟨_, hall⟩, fun _ => hall⟩
        rw [hout, List.append_assoc]
        by_cases hstill : (s.next c).app.state.Reading
        · refine .reading parts before _ file hparts hfiles rfl hpart'.1 fun hconnected => ?_
          rw [hble.resolve_right (not_not.2 hstill)] at hconnected
          exact hpart'.2 hconnected
        · have hflatten (part : List Report) :
              parts.flatten ++ part = (parts ++ [part]).flatten := by
            rw [List.flatten_append, List.flatten_singleton]
          refine .idle (parts ++ [_]) ?_ (hflatten _) hstill
          rw [hfiles]
          exact List.rel_append hparts (.cons hpart'.1 .nil)
    | opens file _ hfile hreports _ htext =>
      obtain ⟨parts, hparts, hout⟩ := h.parts
      rw [hfile, hreports, ite_self, List.append_nil]
      refine .reading parts files [] file hparts rfl (by rw [hout, List.append_nil])
        List.nil_prefix fun _ => ?_
      rw [happ]
      exact htext
    | idle hnone hreports hidle =>
      obtain ⟨parts, hparts, hout⟩ := h.parts
      rw [hnone, hreports, ite_self, List.append_nil, List.append_nil]
      exact .idle parts hparts hout (by rwa [happ])

/-- The application before anything. -/
def start (ble : HalBle) (parser : MacroParser σ) : BleKeyboard σ := ⟨ble, .zero parser⟩

/-- The files opened in a run. -/
def opened (s : BleKeyboard σ) (run : List (Call σ)) : List σ := collect next openings s run

/-- The reports received in a run. -/
def transcript (s : BleKeyboard σ) (run : List (Call σ)) : List Report :=
  collect next received s run

/-- A file is read, or is going to be opened at the next task. -/
def Busy (s : BleKeyboard σ) : Prop := s.app.state.Busy

/-- A call that does not interrupt a file: only tasks come while one is read, and a connection is
    not reported or given up otherwise. -/
def Smooth (s : BleKeyboard σ) : Call σ → Prop
  | .halBleInit _ => ¬s.Busy
  | .bleHidInit => ¬s.app.state.Reading
  | .bleHidStart => ¬s.app.state.Reading
  | .bleHidStop => ¬s.app.state.Reading
  | .bleHidTask _ => True
  | .bleHidHandleEvent type =>
    ¬s.app.state.Reading ∧ (type = .bleConnected → s.ble.halBleIsConnected)

/-- A task goes on to open a file only if the keyboard is connected. -/
theorem busy_of_bleHidTask {app : BleHid σ} {connected : Bool}
    {opened : Except MkStatus (Fin 8 × σ)} (h : (app.bleHidTask connected opened).2.state.Busy) :
    app.state.Busy ∨ connected = true := by
  rw [BleHid.bleHidTask.eq_def] at h
  cases hstate : app.state with
  | uninit =>
    rw [hstate] at h
    exact absurd h not_busy_waitConnection
  | waitConnection =>
    rw [hstate] at h
    cases connected with
    | true => exact .inr rfl
    | false =>
      dsimp only at h
      rw [if_neg Bool.false_ne_true, hstate] at h
      exact absurd h not_busy_waitConnection
  | openFile => exact .inl (.inr rfl)
  | cooldown =>
    rw [hstate] at h
    dsimp only at h
    rcases (waitTick_cases app .waitConnection).2.1 with heq | heq
    · rw [heq, hstate] at h
      exact absurd h not_busy_cooldown
    · rw [heq] at h
      exact absurd h not_busy_waitConnection
  | parse => exact .inl (.inl (.inl rfl))
  | release => exact .inl (.inl (.inr (.inl rfl)))
  | delay => exact .inl (.inl (.inr (.inr rfl)))

/-- A keyboard that is busy stays connected. -/
theorem connected_of_busy_next (h : s.Busy → s.ble.halBleIsConnected = true) (hc : s.Smooth c)
    (hbusy : (s.next c).Busy) : (s.next c).ble.halBleIsConnected = true := by
  cases c with
  | halBleInit stack => exact absurd hbusy hc
  | bleHidInit => exact absurd hbusy not_busy_waitConnection
  | bleHidStart =>
    rcases next_bleHidStart s with happ | hkept
    · rw [Busy, happ] at hbusy
      exact absurd hbusy not_busy_waitConnection
    · rw [hkept] at hbusy ⊢
      exact h hbusy
  | bleHidStop => exact absurd hbusy not_busy_waitConnection
  | bleHidTask opened =>
    have hble : (s.next (.bleHidTask opened)).ble = s.ble :=
      (performed_of_plain _ (plain_bleHidTask _ _ _)).1
    rw [hble]
    rcases busy_of_bleHidTask hbusy with hbefore | hconnected
    · exact h hbefore
    · exact hconnected
  | bleHidHandleEvent type =>
    have hble : (s.next (.bleHidHandleEvent type)).ble = s.ble := rfl
    rw [hble]
    have happ : (s.next (.bleHidHandleEvent type)).app = s.app.bleHidHandleEvent type := rfl
    rw [Busy, happ, bleHidHandleEvent] at hbusy
    split_ifs at hbusy with hconnected hdisconnected
    · exact hc.2 hconnected
    · exact absurd hbusy not_busy_waitConnection
    · exact h hbusy

/-- The reports of the files opened are those received and those still to come. -/
structure TypesAll (s : BleKeyboard σ) (files : List σ) (out : List Report) : Prop where
  connected : s.Busy → s.ble.halBleIsConnected = true
  reports : out ++ s.app.toType = files.flatMap fun file => typed (MacroSource.rest file)

theorem TypesAll.next (h : TypesAll s files out) (hc : s.Smooth c) :
    TypesAll (s.next c) (files ++ s.openings c) (out ++ s.received c) := by
  refine ⟨connected_of_busy_next h.connected hc, ?_⟩
  have hall := h.reports
  cases does_next s c with
  | init _ _ happ _ hreceived hopens =>
    rw [hreceived, hopens, happ, List.append_nil, List.append_nil, hall]
  | call c' hreplied happ hreceived hopens hble =>
    rw [hreceived, hopens, happ]
    cases types_next s.app c' with
    | types hfile hnone hreports =>
      rw [hnone, List.append_nil, if_pos (h.connected (.inl hfile)), List.append_assoc, hreports,
        hall]
    | opens file hidle hfile hreports _ htext =>
      rw [toType_of_not_reading hidle, List.append_nil] at hall
      rw [hfile, hreports, ite_self, List.append_nil, htext, hall, List.flatMap_append,
        List.flatMap_singleton]
    | idle hnone hreports hidle hends =>
      -- The file before is at its end, unless the call interrupts it.
      have hbefore : ¬s.app.state.Reading := by
        intro hreading
        have hinterrupts := hends hreading
        cases c with
        | halBleInit stack => exact hc (.inl hreading)
        | bleHidTask opened =>
          cases hreplied
          exact hinterrupts
        | bleHidHandleEvent type => exact hc.1 hreading
        | _ => exact hc hreading
      rw [toType_of_not_reading hbefore, List.append_nil] at hall
      rw [hnone, hreports, ite_self, toType_of_not_reading hidle, List.append_nil, List.append_nil,
        List.append_nil, hall]

/-- A driver for the device that is not connected. -/
def Unconnected (ble : HalBle) : Prop := ble.platform = .espPlatform ∧ ble.connected = false

theorem Unconnected.not_connected {ble : HalBle} (h : Unconnected ble) :
    ble.halBleIsConnected = false := by
  rw [HalBle.halBleIsConnected, h.1]
  exact h.2

theorem Unconnected.perform {ble : HalBle} (h : Unconnected ble) (e : Effect) :
    Unconnected (perform ble e).1 := by
  cases e with
  | halBleStartAdvertising =>
    rw [BleKeyboard.perform, HalBle.halBleStartAdvertising]
    cases ble.initialized <;> exact h
  | _ => exact h

theorem Unconnected.performed {ble : HalBle} (h : Unconnected ble) (effects : List Effect) :
    Unconnected (performed ble effects) := by
  induction effects generalizing ble with
  | nil => exact h
  | cons e effects ih => exact ih (h.perform e)

/-- No call connects the driver. -/
theorem Unconnected.next (h : Unconnected s.ble) (c : Call σ) : Unconnected (s.next c).ble := by
  cases c with
  | halBleInit stack => exact ⟨h.1, rfl⟩
  | _ => exact h.performed _

theorem Unconnected.foldl (h : Unconnected s.ble) (run : List (Call σ)) :
    Unconnected (run.foldl BleKeyboard.next s).ble := by
  induction run generalizing s with
  | nil => exact h
  | cons c run ih => exact ih (h.next c)

/-- Nothing is received from a driver that is not connected. -/
theorem received_of_not_connected (h : s.ble.halBleIsConnected = false) (c : Call σ) :
    s.received c = [] := by
  cases does_next s c with
  | init _ _ _ _ hreceived => exact hreceived
  | call c' _ _ hreceived => rw [hreceived, h, if_neg Bool.false_ne_true]

/-- On the device, no report is received in any run: nothing sets `s_ble_connected`. -/
theorem nothing_received (parser : MacroParser σ) (run : List (Call σ)) :
    transcript (start (.zero .espPlatform) parser) run = [] := by
  have hstart : Unconnected (start (.zero .espPlatform) parser).ble := ⟨rfl, rfl⟩
  induction run using List.reverseRecOn with
  | nil => rfl
  | append_singleton run c ih =>
    rw [transcript, collect_concat, ← transcript, ih, List.nil_append]
    exact received_of_not_connected (hstart.foldl run).not_connected c

end BleKeyboard

end SliverOS
