import SliverOS.Kernel.Kernel
import SliverOS.Protocol.Firmware

/-!
# The commands of the host

`handle_incoming_frame` of `os/protocol/protocol_service.c`: what a command
does to the kernel, and the calls it makes, of the other subsystems and of the
functions sending telemetry, in their order. The telemetry on the applications
and on the device is given as the structures sent.
-/

namespace SliverOS

open Wire Firmware

/-- The application of a byte below `MK_APP_COUNT`. -/
def MkAppId.ofByte? : UInt8 → Option MkAppId
  | 0 => some .bleHid
  | 1 => some .wifiDiagnostics
  | 2 => some .networkDiagnostics
  | 3 => some .retroGames
  | _ => none

/-- The byte of an application. -/
def MkAppId.toByte (a : MkAppId) : UInt8 := UInt8.ofNat a.ctorIdx

/-- `slvr_task_telemetry_t`. -/
structure TaskTelemetry where
  id : UInt8
  state : UInt8
  priority : UInt8
  periodTicks : UInt32
  executionCount : UInt32
  lastExecutionUs : UInt32
  worstExecutionUs : UInt32
  overrunCount : UInt32
  name : String

/-- `slvr_payload_device_status_t`. -/
structure DeviceStatus where
  tick : UInt32
  uptimeSeconds : UInt32
  schedulerIterations : UInt32
  activeApp : UInt8
  kernelState : UInt8
  taskCount : UInt8
  faultCount : UInt8
  tasks : Vector TaskTelemetry 8

/-- `slvr_payload_app_state_t`, its data as long as `data_len` says. -/
structure AppStatus where
  appId : UInt8
  appState : UInt8
  runsCompleted : UInt16
  errorCount : UInt16
  data : List UInt8

/-- The calls made by `handle_incoming_frame`. -/
inductive Call
  | sendHello (text : String)
  | sendDeviceInfo
  | sendDeviceStatus (status : DeviceStatus)
  | sendMemoryStatus
  | sendStorageStatus
  | sendAppState (status : AppStatus)
  | sendLog (level : UInt8) (msg : String)
  | sendPong (payload : List UInt8)
  | inputSetState (mask : UInt8)
  | handleTerminalCommand (cmdLine : List UInt8)
  | retroGamesReset

/-- What the commands read and write: the kernel, the faults recorded since
    boot, the state of the service, and the images of the statistics of the two
    diagnostics applications. -/
structure Service where
  kernel : MkKernel
  faults : List MkFault
  connected : Bool
  rxFrames : UInt32
  wifiStats : List UInt8
  netReport : List UInt8

namespace Service

variable (s : Service)

/-- The telemetry on a task, in `send_device_status`. -/
def taskTelemetry (tcb : MkTcb) : TaskTelemetry where
  id := tcb.id
  state := UInt8.ofNat tcb.state.ctorIdx
  priority := tcb.priority
  periodTicks := tcb.periodTicks
  executionCount := tcb.executionCount
  lastExecutionUs := tcb.lastExecutionUs
  worstExecutionUs := tcb.worstExecutionUs
  overrunCount := tcb.overrunCount
  name := String.ofList (tcb.name.toList.take 11)

/-- `send_device_status`. The identifier of the latest fault is their number. -/
def sendDeviceStatus : Call :=
  .sendDeviceStatus
    { tick := s.kernel.tick
      uptimeSeconds := s.kernel.tick / 1000
      schedulerIterations := s.kernel.schedulerIterations
      activeApp := s.kernel.activeApp
      kernelState := UInt8.ofNat s.kernel.state.ctorIdx
      taskCount := 8
      faultCount := UInt8.ofNat s.faults.length
      tasks := s.kernel.tasks.map taskTelemetry }

/-- The application data of `send_app_state`, when it fits. -/
def appData : MkAppId → List UInt8
  | .wifiDiagnostics => if s.wifiStats.length ≤ 128 then s.wifiStats else []
  | .networkDiagnostics => if s.netReport.length ≤ 128 then s.netReport else []
  | _ => []

/-- `send_app_state`. -/
def sendAppState (appId : MkAppId) : Call :=
  .sendAppState
    { appId := appId.toByte
      appState := UInt8.ofNat (s.kernel.apps appId).state.ctorIdx
      runsCompleted := (s.kernel.apps appId).runsCompleted.toUInt16
      errorCount := (s.kernel.apps appId).errorCount.toUInt16
      data := s.appData appId }

/-- `mk_app_transition`, its result code discarded. -/
def requestTransition (appId : MkAppId) (newState : MkAppState) : Service :=
  { s with
    kernel := (s.kernel.mkAppTransition appId newState).1
    faults := s.faults ++ (s.kernel.mkAppTransition appId newState).2.2 }

/-- The case `SLVR_CMD_LAUNCH_APP`, for an application. -/
def launchApp (appId : MkAppId) : Service :=
  let s := s.requestTransition appId .active
  { s with kernel := { s.kernel with activeApp := appId.toByte } }

/-- The case `SLVR_CMD_EXIT_APP`, for an application. -/
def exitApp (appId : MkAppId) : Service := s.requestTransition appId .ready

end Service

/-- The types of the commands, `slvr_cmd_type_t`. -/
inductive SlvrCmd
  | connect
  | getInfo
  | getStatus
  | launchApp
  | exitApp
  | appInput
  | keyEvent
  | buttonEvent
  | navigation
  | terminalInput
  | getLogs
  | reset
  | ping
  deriving DecidableEq

/-- The command of a frame type. -/
def SlvrCmd.ofType? : UInt8 → Option SlvrCmd
  | 0x81 => some .connect
  | 0x82 => some .getInfo
  | 0x83 => some .getStatus
  | 0x84 => some .launchApp
  | 0x85 => some .exitApp
  | 0x86 => some .appInput
  | 0x87 => some .keyEvent
  | 0x88 => some .buttonEvent
  | 0x89 => some .navigation
  | 0x8A => some .terminalInput
  | 0x8B => some .getLogs
  | 0x8C => some .reset
  | 0x8D => some .ping
  | _ => none

/-- The application in the payload of a command, when it is there and valid. -/
def Firmware.SlvrFrame.app? (frame : SlvrFrame) : Option MkAppId :=
  if 1 ≤ frame.length then MkAppId.ofByte? frame.payload[0] else none

/-- The cases of `handle_incoming_frame` on an application. -/
def Service.handleApp (s : Service) (app? : Option MkAppId)
    (handle : Service → MkAppId → Service) : Service × List Call :=
  match app? with
  | some appId =>
    let s := handle s appId
    (s, [s.sendAppState appId, s.sendDeviceStatus])
  | none => (s, [])

/-- `handle_incoming_frame`. -/
def handleIncomingFrame (s : Service) (frame : SlvrFrame) : Service × List Call :=
  let s := { s with rxFrames := s.rxFrames + 1 }
  match SlvrCmd.ofType? frame.type with
  | some .connect =>
    ({ s with connected := true }, [.sendHello "SLIVEROS_READY", .sendDeviceInfo,
      s.sendDeviceStatus, .sendMemoryStatus, .sendStorageStatus,
      .sendLog 1 "Host connected via Web Serial (SLVR/1)"])
  | some .getInfo => (s, [.sendDeviceInfo])
  | some .getStatus => (s, [s.sendDeviceStatus, .sendMemoryStatus, .sendStorageStatus])
  | some .launchApp => s.handleApp frame.app? Service.launchApp
  | some .exitApp => s.handleApp frame.app? Service.exitApp
  | some .appInput => (s, if 2 ≤ frame.length then [.inputSetState frame.payload[1]] else [])
  | some .terminalInput =>
    (s, if 0 < frame.length then [.handleTerminalCommand (frame.payloadBytes.take 127)] else [])
  | some .reset =>
    (s, [.retroGamesReset, .sendLog 1 "System reset acknowledged", s.sendDeviceStatus])
  | some .ping => (s, [.sendPong frame.payloadBytes])
  -- Unsupported command: drop safely.
  | some .keyEvent | some .buttonEvent | some .navigation | some .getLogs | none => (s, [])

/-- Commands handled in turn. -/
def Service.run (s : Service) (frames : List SlvrFrame) : Service :=
  frames.foldl (fun s frame => (handleIncomingFrame s frame).1) s

@[simp] theorem Service.run_nil (s : Service) : s.run [] = s := rfl

@[simp] theorem Service.run_append_singleton (s : Service) (frames : List SlvrFrame)
    (frame : SlvrFrame) :
    s.run (frames ++ [frame]) = (handleIncomingFrame (s.run frames) frame).1 := by
  simp [Service.run]

end SliverOS
