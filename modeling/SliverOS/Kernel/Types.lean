import Mathlib

/-!
# Kernel types

The enumerations of `os/kernel/kernel_types.h` and `os/kernel/fault_manager.h`
shared by the subsystems. What a subsystem reports to the fault manager is the
arguments of its call of `mk_fault_record_full` (`MkFault`).
-/

namespace SliverOS

/-- Tables have 8 slots, such as those of tasks and of descriptors. -/
instance neZeroEight : NeZero 8 := ⟨by decide⟩

/-- The table of inodes has 16 slots. -/
instance neZeroSixteen : NeZero 16 := ⟨by decide⟩

/-- `mk_status_t`. -/
inductive MkStatus
  | ok
  | error
  | invalidArg
  | noMemory
  | invalidState
  | timeout
  | notFound
  | busy
  | overrun
  | ioError
  | corrupted
  | queueFull
  | queueEmpty
  deriving DecidableEq, Repr

/-- `mk_kernel_state_t`. -/
inductive MkKernelState
  | reset
  | init
  | ready
  | running
  | sleeping
  | fault
  | shutdown
  deriving DecidableEq, Repr

/-- `mk_task_state_t`. -/
inductive MkTaskState
  | unused
  | ready
  | running
  | blocked
  | sleeping
  | terminated
  | fault
  deriving DecidableEq, Repr

/-- `mk_app_state_t`. -/
inductive MkAppState
  | off
  | init
  | ready
  | active
  | stopping
  | error
  deriving DecidableEq, Repr

/-- `mk_app_id_t`. -/
inductive MkAppId
  | bleHid
  | wifiDiagnostics
  | networkDiagnostics
  | retroGames
  deriving DecidableEq, Repr

instance : Fintype MkAppId where
  elems := {.bleHid, .wifiDiagnostics, .networkDiagnostics, .retroGames}
  complete a := by cases a <;> decide

/-- `mk_fault_code_t`. -/
inductive MkFaultCode
  | none
  | memoryExhausted
  | memoryCorruption
  | memoryDoubleFree
  | memoryInvalidPtr
  | stateInvalidTransition
  | taskStateInvalid
  | taskRegistrationFail
  | schedulerOverrun
  | schedulerDeadlineMiss
  | vfsFail
  | vfsCorruptionRecovered
  | halFail
  | watchdogEvent
  | appError
  deriving DecidableEq, Repr

/-- `mk_fault_source_t`. -/
inductive MkFaultSource
  | memory
  | scheduler
  | state
  | vfs
  | hal
  | wifi
  | ble
  | network
  | display
  | system
  deriving DecidableEq, Repr

/-- `mk_fault_severity_t`. -/
inductive MkFaultSeverity
  | info
  | warning
  | recoverable
  | critical
  | panic
  deriving DecidableEq, Repr

/-- A report to the fault manager: the arguments of `mk_fault_record_full`. -/
structure MkFault where
  code : MkFaultCode
  source : MkFaultSource
  severity : MkFaultSeverity
  errorCode : UInt32
  context : UInt32
  deriving DecidableEq, Repr

end SliverOS
