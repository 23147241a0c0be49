import SliverOS.Kernel.Types
import SliverOS.Queues.Ring

/-!
# The fault manager

`os/kernel/fault_manager.c`: the last faults in a ring of `MK_FAULT_RING_SIZE`
records, and the number of all of them. Pointers passed are not `NULL`, and a
function with an output returns it when its status is `MK_STATUS_OK`.

The tick stored with a fault is that of the kernel, or the number of faults before
it when the tests are run on a host: it is given by a `clock`, from that number.

Each fault of the last round is found, with its number, at its distance from the
latest one, and no other fault is (`mkFaultGetAt_spec`).
-/

namespace SliverOS

open Queues

/-! ## Sources -/

namespace MkFaultSource

/-- The sources, in the order of their numbers. -/
def all : List MkFaultSource :=
  [.memory, .scheduler, .state, .vfs, .hal, .wifi, .ble, .network, .display, .system]

/-- The source of a number below `MK_FAULT_SRC_COUNT`. -/
def ofUInt32? (k : UInt32) : Option MkFaultSource := all[k.toNat]?

/-- The number of a source. -/
def toUInt32 (source : MkFaultSource) : UInt32 := UInt32.ofNat (all.idxOf source)

@[simp] theorem ofUInt32?_toUInt32 (source : MkFaultSource) :
    ofUInt32? source.toUInt32 = some source := by
  cases source <;> rfl

/-- The source stored: any other number is taken for the system. -/
def normalised (k : UInt32) : MkFaultSource := (ofUInt32? k).getD .system

@[simp] theorem normalised_toUInt32 (source : MkFaultSource) :
    normalised source.toUInt32 = source := by
  rw [normalised, ofUInt32?_toUInt32, Option.getD_some]

end MkFaultSource

/-! ## The code -/

/-- `mk_fault_record_t`. -/
structure MkFaultRecord where
  faultId : UInt32
  timestampTicks : UInt32
  faultCode : MkFaultCode
  source : MkFaultSource
  severity : MkFaultSeverity
  errorCode : UInt32
  context : UInt32
  deriving DecidableEq

/-- A record of zeros. -/
def MkFaultRecord.zero : MkFaultRecord := ⟨0, 0, .none, .memory, .info, 0, 0⟩

/-- What a record says of the fault. -/
def MkFaultRecord.fault (r : MkFaultRecord) : MkFault :=
  ⟨r.faultCode, r.source, r.severity, r.errorCode, r.context⟩

/-- The static variables of the fault manager. -/
structure FaultManager where
  faultRing : Fin 32 → MkFaultRecord
  writeIndex : Fin 32
  totalFaults : UInt32
  initialized : Bool

namespace FaultManager

variable (clock : UInt32 → UInt32)

/-- The static variables before any call. -/
def zero : FaultManager := ⟨fun _ => .zero, 0, 0, false⟩

/-- `mk_fault_manager_init`. -/
def mkFaultManagerInit (_ : FaultManager) : FaultManager where
  faultRing := fun _ => .zero
  writeIndex := 0
  totalFaults := 0
  initialized := true

/-- `mk_fault_record_full`. -/
def mkFaultRecordFull (m : FaultManager) (code : MkFaultCode) (source : UInt32)
    (severity : MkFaultSeverity) (errorCode context : UInt32) : FaultManager :=
  let m := if m.initialized then m else m.mkFaultManagerInit
  { m with
    faultRing := Function.update m.faultRing m.writeIndex {
      faultId := m.totalFaults + 1
      timestampTicks := clock m.totalFaults
      faultCode := code
      source := MkFaultSource.normalised source
      severity
      errorCode
      context }
    writeIndex := m.writeIndex + 1
    totalFaults := m.totalFaults + 1 }

/-- `mk_fault_record`. -/
def mkFaultRecord (m : FaultManager) (code : MkFaultCode) (sourceId diagCode : UInt32) :
    FaultManager :=
  let src := (MkFaultSource.ofUInt32? sourceId).getD .system
  m.mkFaultRecordFull clock code src.toUInt32 .warning diagCode 0

/-- The index of the latest record, `last_idx`. -/
def lastIdx (m : FaultManager) : UInt32 :=
  if m.writeIndex = 0 then 31 else UInt32.ofNat m.writeIndex - 1

/-- The index of the record at an offset, `target_idx`. -/
def targetIdx (m : FaultManager) (offsetFromLatest : UInt32) : UInt32 :=
  (m.lastIdx + 32 - offsetFromLatest) % 32

/-- The number of records in the ring, `valid_entries`. -/
def validEntries (m : FaultManager) : UInt32 := if m.totalFaults < 32 then m.totalFaults else 32

/-- `mk_fault_get_latest`. -/
def mkFaultGetLatest (m : FaultManager) : Except MkStatus MkFaultRecord :=
  if m.totalFaults = 0 then .error .notFound
  else .ok (m.faultRing (Fin.ofNat 32 m.lastIdx.toNat))

/-- `mk_fault_get_at`. -/
def mkFaultGetAt (m : FaultManager) (offsetFromLatest : UInt32) : Except MkStatus MkFaultRecord :=
  if m.totalFaults = 0 then .error .notFound
  else if m.validEntries ≤ offsetFromLatest then .error .notFound
  else .ok (m.faultRing (Fin.ofNat 32 (m.targetIdx offsetFromLatest).toNat))

/-! ## Histories -/

/-- A call that records a fault. -/
inductive Call
  | mkFaultRecordFull (code : MkFaultCode) (source : UInt32) (severity : MkFaultSeverity)
      (errorCode context : UInt32)
  | mkFaultRecord (code : MkFaultCode) (sourceId diagCode : UInt32)

/-- The fault that a call records. -/
def Call.fault : Call → MkFault
  | .mkFaultRecordFull code source severity errorCode context =>
    ⟨code, MkFaultSource.normalised source, severity, errorCode, context⟩
  | .mkFaultRecord code sourceId diagCode =>
    ⟨code, MkFaultSource.normalised sourceId, .warning, diagCode, 0⟩

/-- The fault manager after a call. -/
def exec (m : FaultManager) : Call → FaultManager
  | .mkFaultRecordFull code source severity errorCode context =>
    m.mkFaultRecordFull clock code source severity errorCode context
  | .mkFaultRecord code sourceId diagCode => m.mkFaultRecord clock code sourceId diagCode

/-- The fault manager after some calls. -/
def run (m : FaultManager) (calls : List Call) : FaultManager := calls.foldl (exec clock) m

/-- The record of the fault that comes after some others. -/
def recordOf (before : UInt32) (f : MkFault) : MkFaultRecord :=
  ⟨before + 1, clock before, f.code, f.source, f.severity, f.errorCode, f.context⟩

/-- The records of all faults, the latest first. -/
def records : List MkFault → List MkFaultRecord
  | [] => []
  | f :: faults => recordOf clock (UInt32.ofNat faults.length) f :: records faults

/-- The fault manager has recorded some faults, given with the latest first. -/
structure Recorded (m : FaultManager) (faults : List MkFault) : Prop where
  initialized : m.initialized = true
  totalFaults : m.totalFaults = UInt32.ofNat faults.length
  recent : Recent m.faultRing m.writeIndex (records clock faults)

variable {clock} {m : FaultManager} {faults : List MkFault}

@[simp] theorem length_records (faults : List MkFault) :
    (records clock faults).length = faults.length := by
  induction faults with
  | nil => rfl
  | cons f faults ih => rw [records, List.length_cons, ih, List.length_cons]

/-- The record of a fault has its number, counted from the first one. -/
theorem getElem_records (faults : List MkFault) (k : ℕ) (hk : k < faults.length)
    (hlen : k < (records clock faults).length) :
    (records clock faults)[k] =
      recordOf clock (UInt32.ofNat (faults.length - 1 - k)) faults[k] := by
  induction faults generalizing k with
  | nil => exact absurd hk (Nat.not_lt_zero _)
  | cons f faults ih =>
    cases k with
    | zero => rfl
    | succ k =>
      have hk' := Nat.lt_of_succ_lt_succ hk
      have hnum : (f :: faults).length - 1 - (k + 1) = faults.length - 1 - k := by
        rw [List.length_cons]
        omega
      simp only [records, List.getElem_cons_succ, hnum]
      exact ih k hk' _

theorem recorded_mkFaultManagerInit (m : FaultManager) :
    Recorded clock m.mkFaultManagerInit [] :=
  ⟨rfl, rfl, .nil _ _⟩

/-- What a call does: it writes the record of its fault. -/
theorem Recorded.exec (h : Recorded clock m faults) (c : Call) :
    Recorded clock (m.exec clock c) (c.fault :: faults) := by
  have hcode : m.exec clock c = { m with
      faultRing := Function.update m.faultRing m.writeIndex (recordOf clock m.totalFaults c.fault)
      writeIndex := m.writeIndex + 1
      totalFaults := m.totalFaults + 1 } := by
    cases c with
    | mkFaultRecordFull code source severity errorCode context =>
      simp only [FaultManager.exec, mkFaultRecordFull, h.initialized, if_true]
      rfl
    | mkFaultRecord code sourceId diagCode =>
      simp only [FaultManager.exec, mkFaultRecord, mkFaultRecordFull, h.initialized, if_true,
        MkFaultSource.normalised_toUInt32]
      rfl
  rw [hcode]
  refine ⟨h.initialized, ?_, ?_⟩
  · simp only [h.totalFaults, List.length_cons, UInt32.ofNat_add]
    rfl
  · rw [records, h.totalFaults]
    exact h.recent.push _

theorem Recorded.run (h : Recorded clock m faults) (calls : List Call) :
    Recorded clock (m.run clock calls) ((calls.map Call.fault).reverse ++ faults) := by
  induction calls generalizing m faults with
  | nil => exact h
  | cons c calls ih =>
    rw [List.map_cons, List.reverse_cons, List.append_assoc]
    exact ih (h.exec c)

/-! ## Reading -/

theorem toNat_lastIdx (m : FaultManager) : m.lastIdx.toNat = (m.writeIndex + 31) % 32 := by
  have hw := m.writeIndex.isLt
  rw [lastIdx]
  by_cases hzero : m.writeIndex = 0
  · rw [if_pos hzero, hzero]
    rfl
  · have hpos : (m.writeIndex : ℕ) ≠ 0 := fun h => hzero (Fin.ext h)
    have hnum : (UInt32.ofNat m.writeIndex).toNat = m.writeIndex :=
      UInt32.toNat_ofNat_of_lt' (hw.trans (by decide))
    have hone : (1 : UInt32) ≤ UInt32.ofNat m.writeIndex := by
      rw [UInt32.le_iff_toNat_le, hnum]
      exact Nat.pos_of_ne_zero hpos
    rw [if_neg hzero, UInt32.toNat_sub_of_le _ _ hone, hnum]
    change (m.writeIndex : ℕ) - 1 = _
    omega

/-- The slot read is as far before the next one as asked for. -/
theorem targetIdx_eq (m : FaultManager) {k : UInt32} (hk : k.toNat < 32) :
    Fin.ofNat 32 (m.targetIdx k).toNat = before m.writeIndex k.toNat := by
  have hw := m.writeIndex.isLt
  have hlast := toNat_lastIdx m
  have hsum : (m.lastIdx + 32).toNat = m.lastIdx.toNat + 32 := by
    rw [UInt32.toNat_add]
    change (m.lastIdx.toNat + 32) % 2 ^ 32 = _
    omega
  have hle : k ≤ m.lastIdx + 32 := by
    rw [UInt32.le_iff_toNat_le, hsum]
    omega
  refine Fin.ext ?_
  rw [val_before, Fin.val_ofNat, targetIdx, UInt32.toNat_mod, UInt32.toNat_sub_of_le _ _ hle, hsum,
    hlast]
  change _ % 32 % 32 = _
  omega

theorem mkFaultGetLatest_eq (m : FaultManager) : m.mkFaultGetLatest = m.mkFaultGetAt 0 := by
  rw [mkFaultGetLatest, mkFaultGetAt]
  by_cases hzero : m.totalFaults = 0
  · rw [if_pos hzero, if_pos hzero]
  have hvalid : ¬m.validEntries ≤ 0 := by
    rw [UInt32.not_le, UInt32.pos_iff_ne_zero, validEntries]
    split_ifs
    · exact hzero
    · decide
  have hidx : Fin.ofNat 32 m.lastIdx.toNat = before m.writeIndex 0 := by
    refine Fin.ext ?_
    rw [val_before, Fin.val_ofNat, toNat_lastIdx]
    omega
  rw [if_neg hzero, if_neg hzero, if_neg hvalid, hidx, targetIdx_eq m (by decide)]
  rfl

theorem Recorded.toNat_totalFaults (h : Recorded clock m faults) (hn : faults.length < 2 ^ 32) :
    m.totalFaults.toNat = faults.length := by
  rw [h.totalFaults, UInt32.toNat_ofNat_of_lt' hn]

theorem Recorded.toNat_validEntries (h : Recorded clock m faults) (hn : faults.length < 2 ^ 32) :
    m.validEntries.toNat = min faults.length 32 := by
  have htotal := h.toNat_totalFaults hn
  rw [validEntries]
  by_cases hlt : m.totalFaults < 32
  · rw [if_pos hlt, htotal]
    rw [UInt32.lt_iff_toNat_lt, htotal] at hlt
    exact (Nat.min_eq_left (Nat.le_of_lt hlt)).symm
  · rw [if_neg hlt]
    rw [UInt32.lt_iff_toNat_lt, htotal] at hlt
    exact (Nat.min_eq_right (Nat.le_of_not_lt hlt)).symm

/-- A fault of the last round is found. -/
theorem Recorded.mkFaultGetAt (h : Recorded clock m faults) (hn : faults.length < 2 ^ 32)
    {k : UInt32} (hk : k.toNat < faults.length) (hround : k.toNat < 32) :
    m.mkFaultGetAt k =
      .ok (recordOf clock (UInt32.ofNat (faults.length - 1 - k.toNat)) faults[k.toNat]) := by
  have hzero : m.totalFaults ≠ 0 := fun hz => by
    have htotal := h.toNat_totalFaults hn
    rw [hz, UInt32.toNat_zero] at htotal
    omega
  have hin : ¬m.validEntries ≤ k := by
    rw [UInt32.not_le, UInt32.lt_iff_toNat_lt, h.toNat_validEntries hn]
    omega
  have hread := h.recent k.toNat (by simpa using hk) hround
  rw [getElem_records _ _ hk] at hread
  rw [FaultManager.mkFaultGetAt, if_neg hzero, if_neg hin, targetIdx_eq m hround, hread]

/-- No other fault is found. -/
theorem Recorded.mkFaultGetAt_of_le (h : Recorded clock m faults) (hn : faults.length < 2 ^ 32)
    {k : UInt32} (hk : min faults.length 32 ≤ k.toNat) :
    m.mkFaultGetAt k = .error .notFound := by
  have hout : m.validEntries ≤ k := by
    rw [UInt32.le_iff_toNat_le, h.toNat_validEntries hn]
    exact hk
  rw [FaultManager.mkFaultGetAt, if_pos hout, ite_self]

/-- After `n` faults, fewer than `2 ^ 32`, the fault at an offset `k` is the
    `n - k`-th one, as it was recorded, if it is one of the last 32; no other
    fault is found. -/
theorem mkFaultGetAt_spec (clock : UInt32 → UInt32) (m : FaultManager) (calls : List Call)
    (hn : calls.length < 2 ^ 32) :
    (∀ (k : UInt32) (hk : k.toNat < calls.length), k.toNat < 32 →
      ∃ r, (m.mkFaultManagerInit.run clock calls).mkFaultGetAt k = .ok r ∧
        r.faultId.toNat = calls.length - k.toNat ∧
        r.fault = (calls[calls.length - 1 - k.toNat]).fault) ∧
    (∀ k : UInt32, min calls.length 32 ≤ k.toNat →
      (m.mkFaultManagerInit.run clock calls).mkFaultGetAt k = .error .notFound) ∧
    (m.mkFaultManagerInit.run clock calls).mkFaultGetLatest =
      (m.mkFaultManagerInit.run clock calls).mkFaultGetAt 0 := by
  have h : Recorded clock _ _ := (recorded_mkFaultManagerInit m).run calls
  generalize m.mkFaultManagerInit.run clock calls = t at h ⊢
  rw [List.append_nil] at h
  have hlen : ((calls.map Call.fault).reverse).length = calls.length := by simp
  refine ⟨fun k hk hround => ?_, fun k hk => ?_, mkFaultGetLatest_eq t⟩
  · refine ⟨_, h.mkFaultGetAt (hlen.symm ▸ hn) (hlen.symm ▸ hk) hround, ?_, ?_⟩
    · have hnum : (UInt32.ofNat (calls.length - 1 - k.toNat)).toNat = calls.length - 1 - k.toNat :=
        UInt32.toNat_ofNat_of_lt' (Nat.lt_of_le_of_lt (by omega) hn)
      rw [recordOf, UInt32.toNat_add, hlen, hnum]
      change (_ + 1) % 2 ^ 32 = _
      omega
    · simp [recordOf, MkFaultRecord.fault]
  · exact h.mkFaultGetAt_of_le (hlen.symm ▸ hn) (hlen.symm ▸ hk)

/-- A fault more than there are records, of a source that is not known. -/
def wrapped : List Call :=
  (List.range 33).map fun k => .mkFaultRecord .appError 200 (UInt32.ofNat k)

/-- The second fault is the last one in the ring. -/
theorem mkFaultGetAt_spec_wrapped :
    (∃ r, (zero.mkFaultManagerInit.run id wrapped).mkFaultGetAt 31 = .ok r ∧
      r.faultId.toNat = 2 ∧ r.fault = ⟨.appError, .system, .warning, 1, 0⟩) ∧
    (zero.mkFaultManagerInit.run id wrapped).mkFaultGetAt 32 = .error .notFound :=
  have hspec := mkFaultGetAt_spec id zero wrapped (by decide)
  ⟨hspec.1 31 (by decide) (by decide), hspec.2.1 32 (by decide)⟩

end FaultManager

end SliverOS
