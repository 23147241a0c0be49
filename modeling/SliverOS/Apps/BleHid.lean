import SliverOS.Apps.MacroParser
import SliverOS.Kernel.EventBus

/-!
# The BLE HID application

`os/apps/ble_hid/ble_hid.c`: the keyboard that types the macro of `macro.txt`. What the
driver and the file system reply to a call is an argument of it, and the calls that it
makes are its effects; a file that is opened is anything that can be read in chunks
(`MacroSource`).
-/

namespace SliverOS

/-- `ble_app_internal_state_t`. -/
inductive BleAppInternalState
  | uninit
  | waitConnection
  | openFile
  | parse
  | release
  | delay
  | cooldown
  deriving DecidableEq

/-- The static variables of the application. -/
structure BleHid (σ : Type) where
  state : BleAppInternalState
  parser : MacroParser σ
  macroFd : ℤ
  delayRemainingTicks : UInt32

namespace BleHid

/-- The calls that the application makes. -/
inductive Effect
  | halBleStartAdvertising
  | halBleStopAdvertising
  | halBleSendKey (modifier keycode : UInt8)
  | halBleSendRelease
  | vfsOpen (path : List UInt8) (flags : UInt32)
  | vfsClose (fd : ℤ)
  deriving DecidableEq

variable {σ : Type}

/-- The file of the macro is opened for reading. -/
def openMacro : Effect := .vfsOpen (ascii "macro.txt") oRdonly

/-- The variables before anything, the parser not initialized. -/
def zero (parser : MacroParser σ) : BleHid σ := ⟨.uninit, parser, -1, 0⟩

/-- `ble_hid_init`, also to reset the application. -/
def bleHidInit (s : BleHid σ) : BleHid σ :=
  { s with state := .waitConnection, macroFd := -1, delayRemainingTicks := 0 }

/-- `ble_hid_start`: `hal_ble_start_advertising` replies a status. -/
def bleHidStart (s : BleHid σ) (advertising : MkStatus) : List Effect × BleHid σ :=
  ([.halBleStartAdvertising],
    if advertising = .ok then { s with state := .waitConnection } else s)

/-- The file is closed, if there is one. -/
def closeFile (s : BleHid σ) : List Effect × BleHid σ :=
  if 0 ≤ s.macroFd then ([.vfsClose s.macroFd], { s with macroFd := -1 }) else ([], s)

/-- `ble_hid_stop`. -/
def bleHidStop (s : BleHid σ) : List Effect × BleHid σ :=
  let (effects, s) := s.closeFile
  (effects ++ [.halBleStopAdvertising], { s with state := .waitConnection })

/-- The ticks to wait for an event with a delay. -/
def waitTicks (evt : MacroEvent) : UInt32 := evt.delayMs / 10 + 1

/-- `BLE_APP_STATE_PARSE` in `ble_hid_task`, with the parser after the event. -/
def handleMacroEvent (s : BleHid σ) (evt : MacroEvent) : List Effect × BleHid σ :=
  if evt.type = .eof ∨ evt.type = .error then
    let (effects, s) := s.closeFile
    (effects, { s with delayRemainingTicks := 100, state := .cooldown })
  else if evt.type = .stringChar ∨ evt.type = .enter ∨ evt.type = .key then
    if evt.keycode ≠ 0 then
      ([.halBleSendKey evt.modifier evt.keycode], { s with state := .release })
    else ([], s)
  else if evt.type = .delay then
    ([], { s with delayRemainingTicks := waitTicks evt, state := .delay })
  else ([], s)

/-- A tick of a wait, after which the application goes on in the state `next`. -/
def waitTick (s : BleHid σ) (next : BleAppInternalState) : BleHid σ :=
  if 0 < s.delayRemainingTicks then { s with delayRemainingTicks := s.delayRemainingTicks - 1 }
  else { s with state := next }

/-- `ble_hid_task`: `hal_ble_is_connected` replies `connected`, and `vfs_open` of `macro.txt`
    replies `opened`, a descriptor and the file that it is open on. -/
def bleHidTask [MacroSource σ] (s : BleHid σ) (connected : Bool)
    (opened : Except MkStatus (Fin 8 × σ)) : List Effect × BleHid σ :=
  match s.state with
  | .waitConnection => ([], if connected then { s with state := .openFile } else s)
  | .openFile =>
    match opened with
    | .ok (fd, file) =>
      ([openMacro], { s with
        macroFd := (fd : ℕ)
        parser := macroParserInit file
        state := .parse })
    | .error _ => ([openMacro], { s with delayRemainingTicks := 50, state := .cooldown })
  | .parse =>
    let (evt, parser) := s.parser.macroParserNextEvent
    handleMacroEvent { s with parser } evt
  | .release => ([.halBleSendRelease], { s with state := .parse })
  | .delay => ([], s.waitTick .parse)
  | .cooldown => ([], s.waitTick .waitConnection)
  | .uninit => ([], { s with state := .waitConnection })

/-- `ble_hid_handle_event`. -/
def bleHidHandleEvent (s : BleHid σ) (type : MkEventType) : BleHid σ :=
  if type = .bleConnected then { s with state := .openFile }
  else if type = .bleDisconnected then { s with state := .waitConnection }
  else s

/-- An event changes the wait only to start one. -/
theorem handleMacroEvent_cases (s : BleHid σ) (evt : MacroEvent) :
    (s.handleMacroEvent evt).2.parser = s.parser ∧
      ((s.handleMacroEvent evt).2.delayRemainingTicks = s.delayRemainingTicks ∨
        (s.handleMacroEvent evt).2.delayRemainingTicks = 100 ∨
        evt.type = .delay ∧ (s.handleMacroEvent evt).2.delayRemainingTicks = waitTicks evt) := by
  rw [handleMacroEvent]
  split_ifs with _ _ _ hdelay
  · rw [closeFile]
    split_ifs
    · exact ⟨rfl, .inr (.inl rfl)⟩
    · exact ⟨rfl, .inr (.inl rfl)⟩
  · exact ⟨rfl, .inl rfl⟩
  · exact ⟨rfl, .inl rfl⟩
  · exact ⟨rfl, .inr (.inr ⟨hdelay, rfl⟩)⟩
  · exact ⟨rfl, .inl rfl⟩

/-- A tick of a wait does not make it longer. -/
theorem waitTick_cases (s : BleHid σ) (next : BleAppInternalState) :
    (s.waitTick next).parser = s.parser ∧
      ((s.waitTick next).state = s.state ∨ (s.waitTick next).state = next) ∧
      (s.waitTick next).delayRemainingTicks.toNat ≤ s.delayRemainingTicks.toNat := by
  rw [waitTick]
  split_ifs with hpos
  · refine ⟨rfl, .inl rfl, ?_⟩
    rw [UInt32.lt_iff_toNat_lt] at hpos
    have hone : (1 : UInt32) ≤ s.delayRemainingTicks := UInt32.le_iff_toNat_le.2 hpos
    simp only
    rw [UInt32.toNat_sub_of_le _ _ hone]
    exact Nat.sub_le ..
  · exact ⟨rfl, .inr rfl, Nat.le_refl _⟩

/-! ## Runs -/

/-- A call of the application, with what is replied to its own calls. -/
inductive Call (σ : Type)
  | bleHidInit
  | bleHidStart (advertising : MkStatus)
  | bleHidStop
  | bleHidTask (connected : Bool) (opened : Except MkStatus (Fin 8 × σ))
  | bleHidHandleEvent (type : MkEventType)

/-- The effects of a call, and the variables after it. -/
def exec [MacroSource σ] (s : BleHid σ) : Call σ → List Effect × BleHid σ
  | .bleHidInit => ([], s.bleHidInit)
  | .bleHidStart advertising => s.bleHidStart advertising
  | .bleHidStop => s.bleHidStop
  | .bleHidTask connected opened => s.bleHidTask connected opened
  | .bleHidHandleEvent type => ([], s.bleHidHandleEvent type)

/-- A call in which the files opened are all of some kind. -/
def Call.Opens (Allowed : σ → Prop) : Call σ → Prop
  | .bleHidTask _ (.ok (_, file)) => Allowed file
  | _ => True

/-- The states of the application after any calls that open files of some kind. -/
inductive Reachable [MacroSource σ] (Allowed : σ → Prop) : BleHid σ → Prop
  | zero (parser : MacroParser σ) : Reachable Allowed (zero parser)
  | call {s : BleHid σ} (h : Reachable Allowed s) {c : Call σ} (hc : c.Opens Allowed) :
      Reachable Allowed (s.exec c).2

end BleHid

end SliverOS
