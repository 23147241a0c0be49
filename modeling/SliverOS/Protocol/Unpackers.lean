import SliverOS.Bytes.Utf8
import SliverOS.Protocol.Telemetry

/-!
# Telemetry in the browser

The functions of `flasher/src/protocol/host_protocol.js` unpacking payloads,
with literal offsets into them. A number is not there when its bytes are beyond
the end of the payload: the `RangeError` thrown by the `DataView` (`none`).

* `unpack_payload`: from the payload of a frame, each of them returns the values
  in the structure that was sent.
-/

namespace SliverOS.Browser

open Bytes Firmware Utf8

/-! ## Reading payloads -/

section Payload

variable (payload : List UInt8)

/-- `DataView.getUint8`. -/
def getUint8 (offset : ℕ) : Option ℕ := number? 1 offset payload

/-- `DataView.getUint16`, little-endian. -/
def getUint16 (offset : ℕ) : Option ℕ := number? 2 offset payload

/-- `DataView.getUint32`, little-endian. -/
def getUint32 (offset : ℕ) : Option ℕ := number? 4 offset payload

/-- `DataView.getInt16`, little-endian. -/
def getInt16 (offset : ℕ) : Option ℤ :=
  (number? 2 offset payload).map fun v : ℕ => if v < 2 ^ 15 then (v : ℤ) else v - 2 ^ 16

/-- `Uint8Array.prototype.subarray`. -/
def subarray (start finish : ℕ) : List UInt8 := (payload.take finish).drop start

/-- The loop counting the bytes of a text from an offset on, at most `n` of them.
    A byte beyond the payload is `undefined`, thus not zero. -/
def textLen (offset : ℕ) : ℕ → ℕ
  | 0 => 0
  | n + 1 => if payload[offset]? = some 0 then 0 else textLen (offset + 1) n + 1

/-- `readString`, and the same code written out in the other unpackers. -/
def readString (offset maxLen : ℕ) : String :=
  decodeText (subarray payload offset (offset + textLen payload offset maxLen))

end Payload

variable {payload : List UInt8}

/-- The loop ends at the first zero, or at the end of the field. -/
theorem subarray_textLen (offset n : ℕ) :
    subarray payload offset (offset + textLen payload offset n) = zString n offset payload := by
  rw [subarray, zString, List.drop_take, Nat.add_sub_cancel_left]
  induction n generalizing offset with
  | zero => simp [textLen]
  | succ n ih =>
    rw [textLen]
    cases hdrop : payload.drop offset with
    | nil => simp
    | cons b bs =>
      have hb : payload[offset]? = some b := by rw [← List.head?_drop, hdrop, List.head?_cons]
      have hbs : payload.drop (offset + 1) = bs := by rw [← List.drop_drop, hdrop]; rfl
      rw [hb, List.take_succ_cons]
      by_cases hzero : b = 0
      · simp [hzero]
      · have hrest := ih (offset + 1)
        rw [hbs] at hrest
        rw [if_neg (by simpa using hzero), List.take_succ_cons, hrest,
          List.takeWhile_cons_of_pos (by simpa using hzero)]

theorem readString_eq (offset maxLen : ℕ) :
    readString payload offset maxLen = decodeText (zString maxLen offset payload) := by
  rw [readString, subarray_textLen]

/-- An ASCII text is decoded from its bytes. -/
theorem decodeText_ascii {text : String} (h : AsciiText text) :
    decodeText (ascii text) = text := by
  have hbyte : ∀ c ∈ text.toList, (UInt8.ofNat c.toNat).toNat = c.toNat := fun c hc =>
    UInt8.toNat_ofNat_of_lt' ((h c hc).2.trans (by decide))
  have hsmall : ∀ b ∈ ascii text, b ≤ 0x7F := by
    intro b hb
    obtain ⟨c, hc, rfl⟩ := List.mem_map.1 hb
    rw [UInt8.le_iff_toNat_le, hbyte c hc]
    exact Nat.le_of_lt_succ (h c hc).2
  rw [decodeText_of_ascii hsmall, ascii, List.map_map]
  have hchars : text.toList.map ((fun b => Char.ofNat b.toNat) ∘ fun c => UInt8.ofNat c.toNat) =
      text.toList := by
    refine (List.map_congr_left fun c hc => ?_).trans (List.map_id _)
    rw [Function.comp_apply, hbyte c hc, Char.ofNat_toNat, id]
  rw [hchars, String.ofList_toList]

/-- A stored text is read back. -/
theorem readString_of_zString {n offset : ℕ} {text : String} (h : StoredText n text)
    (hread : zString n offset payload = ascii text) : readString payload offset n = text := by
  rw [readString_eq, hread, decodeText_ascii h.2]

/-- As many bytes as a text has are the text. -/
theorem subarray_of_zString {n offset : ℕ} {t : List UInt8} (h : zString n offset payload = t) :
    subarray payload offset (offset + t.length) = t := by
  have hprefix : zString n offset payload <+: payload.drop offset :=
    (List.takeWhile_prefix _).trans (List.take_prefix _ _)
  rw [h] at hprefix
  rw [subarray, List.drop_take, Nat.add_sub_cancel_left]
  exact (List.prefix_iff_eq_take.1 hprefix).symm

/-- A signed number is read back from its bits. -/
theorem getInt16_of_number? {offset : ℕ} {x : Int16}
    (h : number? 2 offset payload = some x.toUInt16.toNat) :
    getInt16 payload offset = some x.toInt := by
  have hbits : x.toUInt16.toNat = x.toBitVec.toNat := rfl
  rw [getInt16, h, Option.map_some, Int16.toInt, BitVec.toInt_eq_toNat_cond, hbits]
  by_cases hneg : x.toBitVec.toNat < 2 ^ 15
  · rw [if_pos hneg, if_pos (by omega)]
  · rw [if_neg hneg, if_neg (by omega)]
    rfl

/-! ## The unpackers -/

/-- What `unpackDeviceInfo` returns. -/
structure UnpackedDeviceInfo where
  product : String
  version : String
  buildId : String
  gitRevision : String
  chipFamily : String
  chipRevision : ℕ
  flashSizeBytes : ℕ
  psramSizeBytes : ℕ
  internalSramTotal : ℕ
  internalSramFree : ℕ
  psramTotal : ℕ
  psramFree : ℕ
  deriving DecidableEq

/-- `unpackDeviceInfo`. -/
def unpackDeviceInfo (payload : List UInt8) : Option UnpackedDeviceInfo := do
  return {
    product := readString payload 0 24
    version := readString payload 24 12
    buildId := readString payload 36 24
    gitRevision := readString payload 60 24
    chipFamily := readString payload 84 16
    chipRevision := ← getUint32 payload 100
    flashSizeBytes := ← getUint32 payload 104
    psramSizeBytes := ← getUint32 payload 108
    internalSramTotal := ← getUint32 payload 112
    internalSramFree := ← getUint32 payload 116
    psramTotal := ← getUint32 payload 120
    psramFree := ← getUint32 payload 124 }

/-- A task in what `unpackDeviceStatus` returns. -/
structure UnpackedTask where
  id : ℕ
  state : ℕ
  priority : ℕ
  periodTicks : ℕ
  executionCount : ℕ
  lastExecutionUs : ℕ
  worstExecutionUs : ℕ
  overrunCount : ℕ
  name : String
  deriving DecidableEq

/-- The task pushed by an iteration of the loop of `unpackDeviceStatus`. -/
def unpackTask (payload : List UInt8) (offset : ℕ) : Option UnpackedTask := do
  return {
    id := ← getUint8 payload offset
    state := ← getUint8 payload (offset + 1)
    priority := ← getUint8 payload (offset + 2)
    periodTicks := ← getUint32 payload (offset + 4)
    executionCount := ← getUint32 payload (offset + 8)
    lastExecutionUs := ← getUint32 payload (offset + 12)
    worstExecutionUs := ← getUint32 payload (offset + 16)
    overrunCount := ← getUint32 payload (offset + 20)
    name := readString payload (offset + 24) 12 }

/-- The loop of `unpackDeviceStatus`, from an offset on. -/
def unpackTasks (payload : List UInt8) : ℕ → ℕ → Option (List UnpackedTask)
  | 0, _ => some []
  | n + 1, offset =>
    if offset + 32 ≤ payload.length then do
      return (← unpackTask payload offset) :: (← unpackTasks payload n (offset + 36))
    else unpackTasks payload n offset

/-- What `unpackDeviceStatus` returns. -/
structure UnpackedDeviceStatus where
  tick : ℕ
  uptimeSeconds : ℕ
  schedulerIterations : ℕ
  activeApp : ℕ
  kernelState : ℕ
  taskCount : ℕ
  faultCount : ℕ
  tasks : List UnpackedTask
  deriving DecidableEq

/-- `unpackDeviceStatus`. -/
def unpackDeviceStatus (payload : List UInt8) : Option UnpackedDeviceStatus := do
  return {
    tick := ← getUint32 payload 0
    uptimeSeconds := ← getUint32 payload 4
    schedulerIterations := ← getUint32 payload 8
    activeApp := ← getUint8 payload 12
    kernelState := ← getUint8 payload 13
    taskCount := ← getUint8 payload 14
    faultCount := ← getUint8 payload 15
    tasks := ← unpackTasks payload 8 16 }

/-- What `unpackMemoryStatus` returns. -/
structure UnpackedMemoryStatus where
  arenaCapacity : ℕ
  arenaUsed : ℕ
  arenaFree : ℕ
  arenaPeak : ℕ
  allocationCount : ℕ
  freeCount : ℕ
  failedAllocations : ℕ
  psramTotal : ℕ
  psramFree : ℕ
  deriving DecidableEq

/-- `unpackMemoryStatus`. -/
def unpackMemoryStatus (payload : List UInt8) : Option UnpackedMemoryStatus := do
  return {
    arenaCapacity := ← getUint32 payload 0
    arenaUsed := ← getUint32 payload 4
    arenaFree := ← getUint32 payload 8
    arenaPeak := ← getUint32 payload 12
    allocationCount := ← getUint32 payload 16
    freeCount := ← getUint32 payload 20
    failedAllocations := ← getUint32 payload 24
    psramTotal := ← getUint32 payload 28
    psramFree := ← getUint32 payload 32 }

/-- What `unpackStorageStatus` returns. -/
structure UnpackedStorageStatus where
  totalSectors : ℕ
  freeSectors : ℕ
  activeSectors : ℕ
  obsoleteSectors : ℕ
  recordCommitCount : ℕ
  deriving DecidableEq

/-- `unpackStorageStatus`. -/
def unpackStorageStatus (payload : List UInt8) : Option UnpackedStorageStatus := do
  return {
    totalSectors := ← getUint32 payload 0
    freeSectors := ← getUint32 payload 4
    activeSectors := ← getUint32 payload 8
    obsoleteSectors := ← getUint32 payload 12
    recordCommitCount := ← getUint32 payload 16 }

/-- What `unpackGameState` returns. -/
structure UnpackedGameState where
  x : ℚ
  y : ℚ
  vx : ℤ
  vy : ℤ
  fuel : ℕ
  score : ℕ
  status : ℕ
  padX : ℕ
  padY : ℕ
  padW : ℕ
  frameSeq : ℕ
  deriving DecidableEq

/-- `unpackGameState`. -/
def unpackGameState (payload : List UInt8) : Option UnpackedGameState := do
  return {
    x := ((← getInt16 payload 0) : ℚ) / 10
    y := ((← getInt16 payload 2) : ℚ) / 10
    vx := ← getInt16 payload 4
    vy := ← getInt16 payload 6
    fuel := ← getUint16 payload 8
    score := ← getUint16 payload 10
    status := ← getUint8 payload 12
    padX := ← getUint8 payload 13
    padY := ← getUint8 payload 14
    padW := ← getUint8 payload 15
    frameSeq := ← getUint32 payload 16 }

/-- What `unpackLog` returns. -/
structure UnpackedLog where
  level : ℕ
  timestampMs : ℕ
  text : String
  deriving DecidableEq

/-- `unpackLog`. -/
def unpackLog (payload : List UInt8) : Option UnpackedLog := do
  return {
    -- The first byte is `undefined` only if the number after it is not there.
    level := ← getUint8 payload 0
    timestampMs := ← getUint32 payload 1
    text := readString payload 5 120 }

/-- What `unpackTerminal` returns. -/
structure UnpackedTerminal where
  text : String
  deriving DecidableEq

/-- `unpackTerminal`. -/
def unpackTerminal (payload : List UInt8) : Option UnpackedTerminal := do
  let textLen ← getUint16 payload 0
  return { text := decodeText (subarray payload 2 (2 + textLen)) }

/-! ## Agreement -/

/-- The values of a device info, under the names of the page. -/
def deviceInfoValues (info : DeviceInfo) : UnpackedDeviceInfo where
  product := info.product
  version := info.version
  buildId := info.buildId
  gitRevision := info.gitRevision
  chipFamily := info.chipFamily
  chipRevision := info.chipRevision.toNat
  flashSizeBytes := info.flashSizeBytes.toNat
  psramSizeBytes := info.psramSizeBytes.toNat
  internalSramTotal := info.internalSramTotal.toNat
  internalSramFree := info.internalSramFree.toNat
  psramTotal := info.psramTotal.toNat
  psramFree := info.psramFree.toNat

/-- The values of a task. -/
def taskValues (task : TaskTelemetry) : UnpackedTask where
  id := task.id.toNat
  state := task.state.toNat
  priority := task.priority.toNat
  periodTicks := task.periodTicks.toNat
  executionCount := task.executionCount.toNat
  lastExecutionUs := task.lastExecutionUs.toNat
  worstExecutionUs := task.worstExecutionUs.toNat
  overrunCount := task.overrunCount.toNat
  name := task.name

/-- The values of a device status, with those of its eight tasks. -/
def deviceStatusValues (status : DeviceStatus) : UnpackedDeviceStatus where
  tick := status.tick.toNat
  uptimeSeconds := status.uptimeSeconds.toNat
  schedulerIterations := status.schedulerIterations.toNat
  activeApp := status.activeApp.toNat
  kernelState := status.kernelState.toNat
  taskCount := status.taskCount.toNat
  faultCount := status.faultCount.toNat
  tasks := status.tasks.toList.map taskValues

/-- The values of a memory status. -/
def memoryStatusValues (st : MemoryStatus) : UnpackedMemoryStatus where
  arenaCapacity := st.arenaCapacity.toNat
  arenaUsed := st.arenaUsed.toNat
  arenaFree := st.arenaFree.toNat
  arenaPeak := st.arenaPeak.toNat
  allocationCount := st.allocationCount.toNat
  freeCount := st.freeCount.toNat
  failedAllocations := st.failedAllocations.toNat
  psramTotal := st.psramTotal.toNat
  psramFree := st.psramFree.toNat

/-- The values of a storage status. -/
def storageStatusValues (st : StorageStatus) : UnpackedStorageStatus where
  totalSectors := st.totalSectors.toNat
  freeSectors := st.freeSectors.toNat
  activeSectors := st.activeSectors.toNat
  obsoleteSectors := st.obsoleteSectors.toNat
  recordCommitCount := st.recordCommitCount.toNat

/-- The values of a game state: the position of the lander is in tenths. -/
def gameStateValues (game : GameState) : UnpackedGameState where
  x := (game.landerX.toInt : ℚ) / 10
  y := (game.landerY.toInt : ℚ) / 10
  vx := game.landerVx.toInt
  vy := game.landerVy.toInt
  fuel := game.fuel.toNat
  score := game.score.toNat
  status := game.status.toNat
  padX := game.padX.toNat
  padY := game.padY.toNat
  padW := game.padW.toNat
  frameSeq := game.frameSeq.toNat

/-- The values of a message to the log. -/
def logValues (log : LogPayload) : UnpackedLog where
  level := log.level.toNat
  timestampMs := log.timestampMs.toNat
  text := log.text

theorem unpackDeviceInfo_of_reads {info : DeviceInfo} (hinfo : info.Stored)
    (h : Reads payload 0 info.fields) :
    unpackDeviceInfo payload = some (deviceInfoValues info) := by
  obtain ⟨hproduct, hversion, hbuild, hgit, hchip⟩ := hinfo
  simp only [DeviceInfo.fields, reads_cons, readAt_textField, Field.readAt_u32, width_textField,
    Field.width_u32, Nat.reduceAdd] at h
  obtain ⟨h0, h24, h36, h60, h84, h⟩ := h
  simp [unpackDeviceInfo, deviceInfoValues, getUint32, h, readString_of_zString hproduct h0,
    readString_of_zString hversion h24, readString_of_zString hbuild h36,
    readString_of_zString hgit h60, readString_of_zString hchip h84]

theorem unpackMemoryStatus_of_reads {st : MemoryStatus} (h : Reads payload 0 st.fields) :
    unpackMemoryStatus payload = some (memoryStatusValues st) := by
  simp only [MemoryStatus.fields, reads_cons, Field.readAt_u32, Field.width_u32,
    Nat.reduceAdd] at h
  simp [unpackMemoryStatus, memoryStatusValues, getUint32, h]

theorem unpackStorageStatus_of_reads {st : StorageStatus} (h : Reads payload 0 st.fields) :
    unpackStorageStatus payload = some (storageStatusValues st) := by
  simp only [StorageStatus.fields, reads_cons, Field.readAt_u32, Field.width_u32,
    Nat.reduceAdd] at h
  simp [unpackStorageStatus, storageStatusValues, getUint32, h]

theorem unpackGameState_of_reads {game : GameState} (h : Reads payload 0 game.fields) :
    unpackGameState payload = some (gameStateValues game) := by
  simp only [GameState.fields, reads_cons, Field.readAt_i16, Field.readAt_u16, Field.readAt_u8,
    Field.readAt_u32, Field.width_i16, Field.width_u16, Field.width_u8, Nat.reduceAdd] at h
  obtain ⟨h0, h2, h4, h6, h⟩ := h
  simp [unpackGameState, gameStateValues, getUint16, getUint8, getUint32, h,
    getInt16_of_number? h0, getInt16_of_number? h2, getInt16_of_number? h4,
    getInt16_of_number? h6]

theorem unpackLog_of_reads {log : LogPayload} (hlog : log.Stored)
    (h : Reads payload 0 log.fields) : unpackLog payload = some (logValues log) := by
  simp only [LogPayload.fields, reads_cons, readAt_textField, Field.readAt_u8, Field.readAt_u32,
    Field.width_u8, Field.width_u32, Nat.reduceAdd] at h
  obtain ⟨h0, h1, h5, -⟩ := h
  simp [unpackLog, logValues, getUint8, getUint32, h0, h1, readString_of_zString hlog h5]

theorem unpackTerminal_of_reads {term : TerminalPayload} (hterm : term.Stored)
    (h : Reads payload 0 term.fields) : unpackTerminal payload = some ⟨term.text⟩ := by
  obtain ⟨⟨_, htext⟩, hlen⟩ := hterm
  simp only [TerminalPayload.fields, reads_cons, readAt_textField, Field.readAt_u16,
    Field.width_u16, Nat.reduceAdd] at h
  obtain ⟨h0, h2, -⟩ := h
  have hascii : term.textLen.toNat = (ascii term.text).length := by simp [hlen, ascii]
  rw [unpackTerminal, getUint16, h0, hascii]
  simp only [Option.pure_def, Option.bind_eq_bind, Option.bind_some, subarray_of_zString h2,
    decodeText_ascii htext]

/-! ### The tasks -/

theorem unpackTask_of_reads {task : TaskTelemetry} {offset : ℕ} (hname : StoredText 12 task.name)
    (h : Reads payload offset task.fields) :
    unpackTask payload offset = some (taskValues task) := by
  simp only [TaskTelemetry.fields, reads_cons, readAt_textField, Field.readAt_u8,
    Field.readAt_u32, Field.width_u8, Field.width_u32, Nat.add_assoc, Nat.reduceAdd] at h
  obtain ⟨h0, h1, h2, -, h4, h8, h12, h16, h20, h24, -⟩ := h
  simp [unpackTask, taskValues, getUint8, getUint32, h0, h1, h2, h4, h8, h12, h16, h20,
    readString_of_zString hname h24]

/-- The loop finds the tasks one after the other. -/
theorem unpackTasks_tasksImage {tasks : List TaskTelemetry}
    (h : ∀ task ∈ tasks, StoredText 12 task.name) (before : List UInt8) :
    unpackTasks (before ++ tasksImage tasks) tasks.length before.length =
      some (tasks.map taskValues) := by
  induction tasks generalizing before with
  | nil => rfl
  | cons task tasks ih =>
    obtain ⟨hname, hnames⟩ := List.forall_mem_cons.1 h
    have himage : tasksImage (task :: tasks) = recordImage task.fields ++ tasksImage tasks := rfl
    have hroom : before.length + 32 ≤ (before ++ tasksImage (task :: tasks)).length := by
      rw [himage, List.length_append, List.length_append, length_taskImage]
      omega
    -- The next task starts where this one ends.
    have hnext := ih hnames (before ++ recordImage task.fields)
    rw [List.append_assoc, List.length_append, length_taskImage, ← himage] at hnext
    rw [List.length_cons, unpackTasks, if_pos hroom, hnext, himage,
      unpackTask_of_reads hname (reads_recordImage (TaskTelemetry.fits hname))]
    rfl

theorem unpackDeviceStatus_image {status : DeviceStatus} (h : status.Stored) :
    unpackDeviceStatus status.image = some (deviceStatusValues status) := by
  have hread : Reads status.image 0 status.fields := reads_recordImage_zero status.fits
  have htasks : unpackTasks status.image 8 16 = some (status.tasks.toList.map taskValues) := by
    have hloop := unpackTasks_tasksImage h (recordImage status.fields)
    rwa [status.length_fields, Vector.length_toList] at hloop
  simp only [DeviceStatus.fields, reads_cons, Field.readAt_u8, Field.readAt_u32, Field.width_u8,
    Field.width_u32, Nat.reduceAdd] at hread
  simp [unpackDeviceStatus, deviceStatusValues, getUint8, getUint32, hread, htasks]

/-- From the payload of the frame sent with a structure, its unpacker returns the
    values stored in it. -/
theorem unpack_payload (frame : SlvrFrame) (txSeq : UInt8) :
    (∀ info : DeviceInfo, info.Stored →
      unpackDeviceInfo (sendTypedMessage frame txSeq .deviceInfo
        (recordImage info.fields)).payloadBytes = some (deviceInfoValues info)) ∧
    (∀ status : DeviceStatus, status.Stored →
      unpackDeviceStatus (sendTypedMessage frame txSeq .deviceStatus
        status.image).payloadBytes = some (deviceStatusValues status)) ∧
    (∀ st : MemoryStatus,
      unpackMemoryStatus (sendTypedMessage frame txSeq .memoryStatus
        (recordImage st.fields)).payloadBytes = some (memoryStatusValues st)) ∧
    (∀ st : StorageStatus,
      unpackStorageStatus (sendTypedMessage frame txSeq .storageStatus
        (recordImage st.fields)).payloadBytes = some (storageStatusValues st)) ∧
    (∀ game : GameState,
      unpackGameState (sendTypedMessage frame txSeq .gameState
        (recordImage game.fields)).payloadBytes = some (gameStateValues game)) ∧
    (∀ log : LogPayload, log.Stored →
      unpackLog (sendTypedMessage frame txSeq .log
        (recordImage log.fields)).payloadBytes = some (logValues log)) ∧
    ∀ term : TerminalPayload, term.Stored →
      unpackTerminal (sendTypedMessage frame txSeq .terminalOutput
        (recordImage term.fields)).payloadBytes = some ⟨term.text⟩ := by
  refine ⟨fun info hinfo => ?_, fun status hstatus => ?_, fun st => ?_, fun st => ?_,
    fun game => ?_, fun log hlog => ?_, fun term hterm => ?_⟩
  · exact unpackDeviceInfo_of_reads hinfo
      (reads_sendTypedMessage frame txSeq _ hinfo.fits (by simp [DeviceInfo.fields]))
  · rw [payloadBytes_sendTypedMessage frame txSeq _ (by rw [status.length_image]; decide)]
    exact unpackDeviceStatus_image hstatus
  · exact unpackMemoryStatus_of_reads
      (reads_sendTypedMessage frame txSeq _ st.fits (by simp [MemoryStatus.fields]))
  · exact unpackStorageStatus_of_reads
      (reads_sendTypedMessage frame txSeq _ st.fits (by simp [StorageStatus.fields]))
  · exact unpackGameState_of_reads
      (reads_sendTypedMessage frame txSeq _ game.fits (by simp [GameState.fields]))
  · exact unpackLog_of_reads hlog
      (reads_sendTypedMessage frame txSeq _ hlog.fits (by simp [LogPayload.fields]))
  · exact unpackTerminal_of_reads hterm
      (reads_sendTypedMessage frame txSeq _ hterm.fits (by simp [TerminalPayload.fields]))

/-- A device info, a status with eight tasks of the same name, a message to the
    log and one to the terminal, as sent by the firmware. -/
theorem unpack_payload_sent :
    unpackDeviceInfo (sendTypedMessage .zero 0 .deviceInfo (recordImage (sendDeviceInfo
      ⟨"20260904-rev2", "ESP32-S3-SIM", 1, 0, 0, 524288, 393216, 0, 0⟩).fields)).payloadBytes =
        some ⟨"SliverOS", "1.0.0", "MK-ESP32-20260904", "20260904-rev2", "ESP32-S3-SIM", 1, 0, 0,
          524288, 393216, 0, 0⟩ ∧
    unpackDeviceStatus (sendTypedMessage .zero 1 .deviceStatus (DeviceStatus.image ⟨5000, 5, 4000,
      3, 3, 8, 0, Vector.replicate 8 ⟨1, 1, 2, 10, 7, 30, 90, 0, "input"⟩⟩)).payloadBytes =
        some ⟨5000, 5, 4000, 3, 3, 8, 0, List.replicate 8 ⟨1, 1, 2, 10, 7, 30, 90, 0, "input"⟩⟩ ∧
    unpackLog (sendTypedMessage .zero 2 .log (recordImage
      (protocolServiceSendLog 1 "System reset acknowledged" 5000).fields)).payloadBytes =
        some ⟨1, 5000, "System reset acknowledged"⟩ ∧
    unpackTerminal (sendTypedMessage .zero 3 .terminalOutput (recordImage
      (protocolServiceSendTerminal "READY").fields)).payloadBytes = some ⟨"READY"⟩ := by
  have hgit : AsciiText "20260904-rev2" := by simp [AsciiText]
  have hchip : AsciiText "ESP32-S3-SIM" := by simp [AsciiText]
  have hname : StoredText 12 "input" := by simp [StoredText, AsciiText]
  have hlog : AsciiText "System reset acknowledged" := by simp [AsciiText]
  have hterm : AsciiText "READY" := by simp [AsciiText]
  refine ⟨?_, ?_, ?_, ?_⟩
  · rw [(unpack_payload .zero 0).1 _ (stored_sendDeviceInfo hgit hchip)]
    simp [deviceInfoValues, sendDeviceInfo, cutText]
  · rw [(unpack_payload .zero 1).2.1 _ fun task htask => ?_]
    · simp [deviceStatusValues, taskValues]
    · rw [Vector.mem_toList_iff, Vector.mem_replicate] at htask
      rwa [htask.2]
  · rw [(unpack_payload .zero 2).2.2.2.2.2.1 _ (stored_protocolServiceSendLog hlog 1 5000)]
    simp [logValues, protocolServiceSendLog, cutText]
  · rw [(unpack_payload .zero 3).2.2.2.2.2.2 _ (stored_protocolServiceSendTerminal hterm)]
    simp [protocolServiceSendTerminal, cutText]

end SliverOS.Browser
