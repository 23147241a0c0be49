import SliverOS.Kernel.FaultManager
import SliverOS.Protocol.Service

/-!
# The faults in the telemetry

`send_device_status` of `os/protocol/protocol_service.c` takes the number of faults from the
identifier of the latest record of the fault manager, cut to the byte of `fault_count`.

* `sendDeviceStatus_eq`: the structure sent is the one of `Service.sendDeviceStatus`, which counts
  the faults;
* `FaultManager.conspicuous_iff`: the byte tells whether there was a fault, and does not decrease,
  in the histories of fewer than 256 faults only. At the next one it is that of no fault at all.
-/

namespace SliverOS

namespace FaultManager

/-- `status.fault_count`, in `send_device_status`. -/
def statusFaultCount (m : FaultManager) : UInt8 :=
  match m.mkFaultGetLatest with
  | .ok fault => fault.faultId.toUInt8
  | .error _ => 0

/-- The structure filled by `send_device_status`. -/
def sendDeviceStatus (m : FaultManager) (k : MkKernel) : DeviceStatus where
  tick := k.tick
  uptimeSeconds := k.tick / 1000
  schedulerIterations := k.schedulerIterations
  activeApp := k.activeApp
  kernelState := UInt8.ofNat k.state.ctorIdx
  taskCount := 8
  faultCount := m.statusFaultCount
  tasks := k.tasks.map Service.taskTelemetry

/-- No fault is hidden, in the messages sent while faults are recorded: the count is zero before
    the first one only, and does not decrease at any. -/
structure Conspicuous (clock : UInt32 → UInt32) (m : FaultManager) (calls : List Call) : Prop where
  zero_iff : ∀ before, before <+: calls → ∀ k : MkKernel,
    ((m.run clock before).sendDeviceStatus k).faultCount = 0 ↔ before = []
  monotone : ∀ before c, before ++ [c] <+: calls → ∀ k k' : MkKernel,
    ((m.run clock before).sendDeviceStatus k).faultCount ≤
      ((m.run clock (before ++ [c])).sendDeviceStatus k').faultCount

variable {clock : UInt32 → UInt32} {m : FaultManager} {faults : List MkFault} {calls : List Call}

/-- The byte is the number of faults, cut. -/
theorem Recorded.statusFaultCount (h : Recorded clock m faults) (hn : faults.length < 2 ^ 32) :
    m.statusFaultCount = UInt8.ofNat faults.length := by
  rw [FaultManager.statusFaultCount, mkFaultGetLatest_eq]
  rcases Nat.eq_zero_or_pos faults.length with hzero | hpos
  · rw [h.mkFaultGetAt_of_le hn (by simp [hzero]), hzero]
    rfl
  · rw [h.mkFaultGetAt hn (k := 0) hpos (by decide)]
    have hid : UInt32.ofNat (faults.length - 1) + 1 = UInt32.ofNat faults.length := by
      have hone : (1 : UInt32) = UInt32.ofNat 1 := rfl
      rw [hone, ← UInt32.ofNat_add, Nat.sub_add_cancel hpos]
    change (UInt32.ofNat (faults.length - 1) + 1).toUInt8 = _
    rw [hid]
    exact UInt8.toNat_inj.1 (by simp)

/-- The structure sent is the one that counts the faults since boot. -/
theorem sendDeviceStatus_eq {s : Service} (h : Recorded clock m s.faults.reverse)
    (hn : s.faults.length < 2 ^ 32) :
    s.sendDeviceStatus = .sendDeviceStatus (m.sendDeviceStatus s.kernel) := by
  rw [Service.sendDeviceStatus, sendDeviceStatus, h.statusFaultCount (by simpa using hn),
    List.length_reverse]

/-- The count in a message, after a history. -/
theorem faultCount_run (clock : UInt32 → UInt32) (m : FaultManager)
    (hn : calls.length < 2 ^ 32) (k : MkKernel) :
    ((m.mkFaultManagerInit.run clock calls).sendDeviceStatus k).faultCount.toNat =
      calls.length % 256 := by
  have h : Recorded clock _ _ := (recorded_mkFaultManagerInit m).run calls
  have hlength : ((calls.map Call.fault).reverse ++ []).length = calls.length := by simp
  rw [sendDeviceStatus, h.statusFaultCount (hlength.symm ▸ hn), hlength, UInt8.toNat_ofNat']

/-- After 256 faults, there is no fault to be seen. -/
theorem not_conspicuous_of_le (hle : 256 ≤ calls.length) (k : MkKernel) :
    ¬Conspicuous clock m.mkFaultManagerInit calls := by
  intro h
  have hlength : (calls.take 256).length = 256 := List.length_take_of_le hle
  have hfew : (calls.take 256).length < 2 ^ 32 := by
    rw [hlength]
    decide
  have hcount := faultCount_run clock m hfew k
  rw [hlength] at hcount
  have hnil := (h.zero_iff _ (List.take_prefix _ _) k).1 (UInt8.toNat_inj.1 hcount)
  rw [hnil] at hlength
  exact absurd hlength (by decide)

/-- In the messages sent while fewer than 2 ^ 32 faults are recorded, the count hides none if and
    only if there are fewer than 256. -/
theorem conspicuous_iff (clock : UInt32 → UInt32) (m : FaultManager)
    (hn : calls.length < 2 ^ 32) :
    Conspicuous clock m.mkFaultManagerInit calls ↔ calls.length < 256 := by
  constructor
  · intro h
    by_contra hlt
    exact not_conspicuous_of_le (Nat.le_of_not_lt hlt) .zero h
  · intro hlt
    have hcount (before : List Call) (hbefore : before <+: calls) (k : MkKernel) :
        ((m.mkFaultManagerInit.run clock before).sendDeviceStatus k).faultCount.toNat =
          before.length := by
      have hle := hbefore.length_le
      rw [faultCount_run clock m (Nat.lt_of_le_of_lt hle hn), Nat.mod_eq_of_lt (by omega)]
    constructor
    · intro before hbefore k
      rw [← UInt8.toNat_inj, hcount before hbefore k, UInt8.toNat_zero,
        List.length_eq_zero_iff]
    · intro before c hbefore k k'
      rw [UInt8.le_iff_toNat_le, hcount _ ((List.prefix_append _ _).trans hbefore),
        hcount _ hbefore, List.length_append]
      exact Nat.le_add_right _ _

/-- Two faults. -/
theorem conspicuous_two : Conspicuous id zero.mkFaultManagerInit
    [.mkFaultRecord .appError 0 1, .mkFaultRecord .appError 0 2] :=
  (conspicuous_iff id zero (by decide)).2 (by decide)

/-- As many faults as the byte has values. -/
theorem not_conspicuous : ¬Conspicuous id zero.mkFaultManagerInit
    (List.replicate 256 (.mkFaultRecord .appError 0 0)) :=
  not_conspicuous_of_le (by rw [List.length_replicate]) .zero

end FaultManager

end SliverOS
