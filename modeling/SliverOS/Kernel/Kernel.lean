import SliverOS.Kernel.Types

/-!
# The kernel control block

`os/kernel/kernel.c`, the transition matrices of `os/kernel/state_machine.c`
and the registration of tasks in `os/kernel/scheduler.c`, up to the state in
which `app_main` of `os/main/main.c` starts the cooperative loop (`booted`).

A transition the matrix does not have changes nothing and reports a fault
(`mkAppTransition_of_not_valid`); one it has changes the state of the
application only (`mkAppTransition_of_valid`).
-/

namespace SliverOS

/-- `MK_TASK_EXEC_BUDGET_US`. -/
def taskExecBudgetUs : UInt32 := 25000

/-- `mk_tcb_t`. The entry point is the name of the function it points to. -/
structure MkTcb where
  id : UInt8
  state : MkTaskState
  priority : UInt8
  periodTicks : UInt32
  nextRunTick : UInt32
  entry : Option String
  executionCount : UInt32
  faultCount : UInt32
  maxExecutionUs : UInt32
  lastExecutionUs : UInt32
  worstExecutionUs : UInt32
  deadlineMissCount : UInt32
  overrunCount : UInt32
  name : String
  deriving DecidableEq

/-- `mk_app_control_t`. -/
structure MkAppControl where
  id : MkAppId
  state : MkAppState
  taskId : UInt8
  name : String
  runsCompleted : UInt32
  errorCount : UInt32
  deriving DecidableEq

/-- `mk_kernel_t`. -/
structure MkKernel where
  state : MkKernelState
  tick : UInt32
  schedulerIterations : UInt32
  activeApp : UInt8
  tasks : Vector MkTcb 8
  apps : MkAppId → MkAppControl

/-! ## Transitions -/

/-- `s_kernel_transition_matrix`, by its rows. -/
def kernelTransitionMatrix : MkKernelState → MkKernelState → Bool
  | .reset, next => next = .init ∨ next = .shutdown
  | .init, next => next = .ready ∨ next = .fault ∨ next = .shutdown
  | .ready, next => next = .running ∨ next = .fault ∨ next = .shutdown
  | .running, next => next = .ready ∨ next = .sleeping ∨ next = .fault ∨ next = .shutdown
  | .sleeping, next => next = .running ∨ next = .fault ∨ next = .shutdown
  | .fault, next => next = .shutdown
  | .shutdown, _ => false

/-- `s_app_transition_matrix`, by its rows. -/
def appTransitionMatrix : MkAppState → MkAppState → Bool
  | .off, next => next = .init
  | .init, next => next = .ready ∨ next = .error
  | .ready, next => next = .off ∨ next = .active
  | .active, next => next = .stopping ∨ next = .error
  | .stopping, next => next = .ready ∨ next = .error
  | .error, next => next = .init

/-- `((uint32_t)from << 16) | (uint32_t)to`. -/
def transitionCode (source target : ℕ) : UInt32 :=
  (UInt32.ofNat source <<< 16) ||| UInt32.ofNat target

/-- The subsystem an application's faults are filed under. -/
def MkAppId.faultSource : MkAppId → MkFaultSource
  | .bleHid => .ble
  | .wifiDiagnostics => .wifi
  | .networkDiagnostics => .network
  | .retroGames => .display

namespace MkKernel

/-- `mk_kernel_transition`: the kernel after it, what it returns, and the faults
    it reports. -/
def mkKernelTransition (k : MkKernel) (newState : MkKernelState) :
    MkKernel × MkStatus × List MkFault :=
  if kernelTransitionMatrix k.state newState then ({ k with state := newState }, .ok, [])
  else (k, .invalidState, [⟨.stateInvalidTransition, .state, .critical,
    transitionCode k.state.ctorIdx newState.ctorIdx, 0⟩])

/-- The kernel with an application in another state. -/
def setAppState (k : MkKernel) (appId : MkAppId) (newState : MkAppState) : MkKernel :=
  { k with apps := Function.update k.apps appId { k.apps appId with state := newState } }

/-- `mk_app_transition`. -/
def mkAppTransition (k : MkKernel) (appId : MkAppId) (newState : MkAppState) :
    MkKernel × MkStatus × List MkFault :=
  if appTransitionMatrix (k.apps appId).state newState then (k.setAppState appId newState, .ok, [])
  else (k, .invalidState, [⟨.stateInvalidTransition, appId.faultSource, .warning,
    transitionCode (k.apps appId).state.ctorIdx newState.ctorIdx, UInt32.ofNat appId.ctorIdx⟩])

variable {k : MkKernel} {a b : MkAppId} {s : MkAppState}

@[simp] theorem setAppState_apps_self : ((k.setAppState a s).apps a).state = s := by
  simp [setAppState]

@[simp] theorem setAppState_apps_of_ne (h : b ≠ a) : (k.setAppState a s).apps b = k.apps b :=
  Function.update_of_ne h _ _

/-- A transition the matrix has is made. -/
theorem mkAppTransition_of_valid (h : appTransitionMatrix (k.apps a).state s) :
    k.mkAppTransition a s = (k.setAppState a s, .ok, []) := if_pos h

/-- A transition it does not have changes nothing and is refused. -/
theorem mkAppTransition_of_not_valid (h : ¬appTransitionMatrix (k.apps a).state s) :
    (k.mkAppTransition a s).1 = k ∧ (k.mkAppTransition a s).2.1 = .invalidState := by
  rw [mkAppTransition, if_neg h]
  exact ⟨rfl, rfl⟩

/-! ## Boot -/

/-- A task control block of zeros. -/
def zeroTcb : MkTcb := ⟨0, .unused, 0, 0, 0, none, 0, 0, 0, 0, 0, 0, 0, ""⟩

/-- The control block as `memset` leaves it. -/
def zero : MkKernel where
  state := .reset
  tick := 0
  schedulerIterations := 0
  activeApp := 0
  tasks := Vector.replicate 8 zeroTcb
  apps := fun _ => ⟨.bleHid, .off, 0, "", 0, 0⟩

/-- `mk_kernel_boot`. -/
def mkKernelBoot : MkKernel × MkStatus × List MkFault := zero.mkKernelTransition .init

/-- `mk_scheduler_init`, for the control block. -/
def mkSchedulerInit (k : MkKernel) : MkKernel :=
  { k with
    tasks := Vector.ofFn fun i =>
      { zeroTcb with id := UInt8.ofNat i, priority := 7, maxExecutionUs := taskExecBudgetUs }
    schedulerIterations := 0 }

/-- `mk_kernel_init`, after a successful boot. -/
def mkKernelInit (k : MkKernel) : MkKernel × MkStatus :=
  if k.state = .init then
    (mkSchedulerInit { k with apps := fun i => ⟨i, .off, 0, "unregistered", 0, 0⟩ }, .ok)
  else (k, .invalidState)

/-- `mk_kernel_register_app`. -/
def mkKernelRegisterApp (k : MkKernel) (appId : MkAppId) (name : String) (taskId : UInt8) :
    MkKernel × MkStatus × List MkFault :=
  if 8 ≤ taskId then (k, .invalidArg, [])
  else
    let app := { k.apps appId with id := appId, name, taskId, state := .off }
    { k with apps := Function.update k.apps appId app }.mkAppTransition appId .init

/-- `mk_task_register`, with a name. -/
def mkTaskRegister (k : MkKernel) (taskId : UInt8) (name : String) (entry : Option String)
    (priority : UInt8) (periodTicks : UInt32) : MkKernel × MkStatus × List MkFault :=
  if 8 ≤ taskId ∨ entry = none then
    (k, .invalidArg, [⟨.taskRegistrationFail, .scheduler, .warning, taskId.toUInt32, 0⟩])
  else
    let tcb : MkTcb :=
      { id := taskId
        state := .ready
        priority := if 7 < priority then 7 else priority
        periodTicks
        nextRunTick := k.tick
        entry
        executionCount := 0
        faultCount := 0
        maxExecutionUs := taskExecBudgetUs
        lastExecutionUs := 0
        worstExecutionUs := 0
        deadlineMissCount := 0
        overrunCount := 0
        name := String.ofList (name.toList.take 15) }
    ({ k with tasks := k.tasks.setIfInBounds taskId.toNat tcb }, .ok, [])

/-- The calls of `app_main` on the control block, up to the cooperative loop. -/
def booted : MkKernel :=
  let k := mkKernelBoot.1.mkKernelInit.1
  let k := (k.mkKernelRegisterApp .bleHid "BLE_HID" 1).1
  let k := (k.mkKernelRegisterApp .wifiDiagnostics "WIFI_DIAG" 2).1
  let k := (k.mkKernelRegisterApp .networkDiagnostics "NET_DIAG" 3).1
  let k := (k.mkKernelRegisterApp .retroGames "RETRO_GAMES" 4).1
  let k := (k.mkTaskRegister 0 "host_proto" (some "protocol_service_task") 0 1).1
  let k := (k.mkTaskRegister 1 "ble_hid" (some "ble_hid_task") 2 1).1
  let k := (k.mkTaskRegister 2 "wifi_diag" (some "wifi_diagnostics_task") 4 5).1
  let k := (k.mkTaskRegister 3 "net_diag" (some "network_diagnostics_task") 6 10).1
  let k := (k.mkTaskRegister 4 "retro_games" (some "retro_games_task") 7 2).1
  let k := (k.mkAppTransition .bleHid .ready).1
  let k := (k.mkAppTransition .wifiDiagnostics .ready).1
  let k := (k.mkAppTransition .networkDiagnostics .ready).1
  let k := (k.mkAppTransition .retroGames .ready).1
  let k := (k.mkKernelTransition .ready).1
  (k.mkKernelTransition .running).1

/-- All of the applications are ready after boot, and the kernel is running. -/
theorem booted_ready : booted.state = .running ∧ ∀ a, (booted.apps a).state = .ready := by
  decide +kernel

end MkKernel

end SliverOS
