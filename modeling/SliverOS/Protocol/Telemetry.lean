import SliverOS.Bytes.Layout
import SliverOS.Kernel.Arena
import SliverOS.Protocol.Service
import SliverOS.Vfs.Vfs

/-!
# Telemetry

The packed structures of `os/protocol/host_protocol.h` that the firmware sends
as payloads, and the functions of `os/protocol/protocol_service.c` that fill and
send them. The values are those of the fields; the image of a structure is its
fields in memory, one after the other.

A text is copied to a field cleared before, all but the last byte of it
(`cutText`). The text of an ASCII string is thus stored with zeros after it
(`StoredText`), as it is in every structure sent.
-/

namespace SliverOS

open Bytes Firmware

/-! ## Texts -/

/-- A text in ASCII, without zeros in it. -/
def AsciiText (text : String) : Prop := ∀ c ∈ text.toList, 0 < c.toNat ∧ c.toNat < 128

instance (text : String) : Decidable (AsciiText text) :=
  inferInstanceAs (Decidable (∀ c ∈ text.toList, 0 < c.toNat ∧ c.toNat < 128))

/-- A text that is in a field of `n` bytes, with a zero after it. -/
def StoredText (n : ℕ) (text : String) : Prop := text.toList.length < n ∧ AsciiText text

instance (n : ℕ) (text : String) : Decidable (StoredText n text) :=
  inferInstanceAs (Decidable (_ ∧ _))

/-- `strncpy` of all but the last byte of a field of `n` bytes cleared before. -/
def cutText (n : ℕ) (text : String) : String := String.ofList (text.toList.take (n - 1))

/-- The field of a text. -/
def textField (n : ℕ) (text : String) : Field := .text n (ascii text)

@[simp] theorem width_textField (n : ℕ) (text : String) : (textField n text).width = n := rfl

@[simp] theorem readAt_textField {n offset : ℕ} {text : String} {bs : List UInt8} :
    (textField n text).ReadAt bs offset ↔ zString n offset bs = ascii text := .rfl

theorem AsciiText.storedText {n : ℕ} {text : String} (h : AsciiText text) (hn : 0 < n) :
    StoredText n (cutText n text) := by
  rw [StoredText, AsciiText, cutText, String.toList_ofList]
  refine ⟨?_, fun c hc => h c (List.mem_of_mem_take hc)⟩
  have := List.length_take_le (n - 1) text.toList
  omega

theorem StoredText.fits {n : ℕ} {text : String} (h : StoredText n text) :
    (textField n text).Fits := by
  obtain ⟨hlen, htext⟩ := h
  refine ⟨by simpa [ascii] using hlen.le, fun hmem => ?_⟩
  obtain ⟨c, hc, hzero⟩ := List.mem_map.1 hmem
  obtain ⟨hpos, hlt⟩ := htext c hc
  have hnum := congrArg UInt8.toNat hzero
  rw [UInt8.toNat_ofNat_of_lt' (hlt.trans (by decide)), UInt8.toNat_zero] at hnum
  omega

/-! ## The structures -/

/-- `slvr_payload_device_info_t`. -/
structure DeviceInfo where
  product : String
  version : String
  buildId : String
  gitRevision : String
  chipFamily : String
  chipRevision : UInt32
  flashSizeBytes : UInt32
  psramSizeBytes : UInt32
  internalSramTotal : UInt32
  internalSramFree : UInt32
  psramTotal : UInt32
  psramFree : UInt32

/-- `slvr_payload_memory_status_t`. -/
structure MemoryStatus where
  arenaCapacity : UInt32
  arenaUsed : UInt32
  arenaFree : UInt32
  arenaPeak : UInt32
  allocationCount : UInt32
  freeCount : UInt32
  failedAllocations : UInt32
  psramTotal : UInt32
  psramFree : UInt32

/-- `slvr_payload_storage_status_t`. -/
structure StorageStatus where
  totalSectors : UInt32
  freeSectors : UInt32
  activeSectors : UInt32
  obsoleteSectors : UInt32
  recordCommitCount : UInt32

/-- `slvr_payload_game_state_t`, the position of the lander in tenths. -/
structure GameState where
  landerX : Int16
  landerY : Int16
  landerVx : Int16
  landerVy : Int16
  fuel : UInt16
  score : UInt16
  status : UInt8
  padX : UInt8
  padY : UInt8
  padW : UInt8
  frameSeq : UInt32

/-- `slvr_payload_log_t`. -/
structure LogPayload where
  level : UInt8
  timestampMs : UInt32
  text : String

/-- `slvr_payload_terminal_t`. -/
structure TerminalPayload where
  textLen : UInt16
  text : String

/-! ## Their images -/

/-- The fields of `slvr_payload_device_info_t`. -/
def DeviceInfo.fields (info : DeviceInfo) : List Field :=
  [textField 24 info.product, textField 12 info.version, textField 24 info.buildId,
    textField 24 info.gitRevision, textField 16 info.chipFamily, .u32 info.chipRevision,
    .u32 info.flashSizeBytes, .u32 info.psramSizeBytes, .u32 info.internalSramTotal,
    .u32 info.internalSramFree, .u32 info.psramTotal, .u32 info.psramFree]

/-- The fields of `slvr_task_telemetry_t`, with its padding. -/
def TaskTelemetry.fields (task : TaskTelemetry) : List Field :=
  [.u8 task.id, .u8 task.state, .u8 task.priority, .u8 0, .u32 task.periodTicks,
    .u32 task.executionCount, .u32 task.lastExecutionUs, .u32 task.worstExecutionUs,
    .u32 task.overrunCount, textField 12 task.name]

/-- The fields of `slvr_payload_device_status_t` before the tasks. -/
def DeviceStatus.fields (status : DeviceStatus) : List Field :=
  [.u32 status.tick, .u32 status.uptimeSeconds, .u32 status.schedulerIterations,
    .u8 status.activeApp, .u8 status.kernelState, .u8 status.taskCount, .u8 status.faultCount]

/-- The fields of `slvr_payload_memory_status_t`. -/
def MemoryStatus.fields (st : MemoryStatus) : List Field :=
  [.u32 st.arenaCapacity, .u32 st.arenaUsed, .u32 st.arenaFree, .u32 st.arenaPeak,
    .u32 st.allocationCount, .u32 st.freeCount, .u32 st.failedAllocations, .u32 st.psramTotal,
    .u32 st.psramFree]

/-- The fields of `slvr_payload_storage_status_t`. -/
def StorageStatus.fields (st : StorageStatus) : List Field :=
  [.u32 st.totalSectors, .u32 st.freeSectors, .u32 st.activeSectors, .u32 st.obsoleteSectors,
    .u32 st.recordCommitCount]

/-- The fields of `slvr_payload_game_state_t`. -/
def GameState.fields (game : GameState) : List Field :=
  [.i16 game.landerX, .i16 game.landerY, .i16 game.landerVx, .i16 game.landerVy, .u16 game.fuel,
    .u16 game.score, .u8 game.status, .u8 game.padX, .u8 game.padY, .u8 game.padW,
    .u32 game.frameSeq]

/-- The fields of `slvr_payload_log_t`. -/
def LogPayload.fields (log : LogPayload) : List Field :=
  [.u8 log.level, .u32 log.timestampMs, textField 120 log.text]

/-- The fields of `slvr_payload_terminal_t`. -/
def TerminalPayload.fields (term : TerminalPayload) : List Field :=
  [.u16 term.textLen, textField 256 term.text]

/-- The bytes of the tasks of a device status. -/
def tasksImage (tasks : List TaskTelemetry) : List UInt8 :=
  tasks.flatMap fun task => recordImage task.fields

/-- The bytes of a `slvr_payload_device_status_t`. -/
def DeviceStatus.image (status : DeviceStatus) : List UInt8 :=
  recordImage status.fields ++ tasksImage status.tasks.toList

/-! ## Sending -/

/-- The types of the messages with telemetry, of `slvr_msg_type_t`. -/
inductive SlvrMsg
  | deviceInfo
  | deviceStatus
  | memoryStatus
  | storageStatus
  | log
  | gameState
  | terminalOutput
  deriving DecidableEq

/-- The frame type of a message. -/
def SlvrMsg.toByte : SlvrMsg → UInt8
  | deviceInfo => 0x02
  | deviceStatus => 0x06
  | memoryStatus => 0x07
  | storageStatus => 0x08
  | log => 0x09
  | gameState => 0x0D
  | terminalOutput => 0x0E

/-- `send_typed_message`: the frame it sends, which it fills in a variable that
    is not initialised. -/
def sendTypedMessage (frame : SlvrFrame) (txSeq : UInt8) (msg : SlvrMsg) (payload : List UInt8) :
    SlvrFrame :=
  let len := UInt16.ofNat payload.length
  let length := if 512 < len then 512 else len
  { frame with
    version := 1
    type := msg.toByte
    flags := 0
    sequence := txSeq
    length
    payload := Vector.ofFn fun i =>
      if i < length.toNat then payload.getD i 0 else frame.payload[i] }

/-- The fields of `mk_diag_identity_t` that are sent. -/
structure MkDiagIdentity where
  gitRevision : String
  chipFamily : String
  chipRevision : UInt32
  flashSizeBytes : UInt32
  psramSizeBytes : UInt32
  internalSramTotal : ℕ
  internalSramFree : ℕ
  psramTotal : ℕ
  psramFree : ℕ

/-- `send_device_info`: the structure sent. -/
def sendDeviceInfo (diag : MkDiagIdentity) : DeviceInfo where
  product := cutText 24 "SliverOS"
  version := cutText 12 "1.0.0"
  buildId := cutText 24 "MK-ESP32-20260904"
  gitRevision := cutText 24 diag.gitRevision
  chipFamily := cutText 16 diag.chipFamily
  chipRevision := diag.chipRevision
  flashSizeBytes := diag.flashSizeBytes
  psramSizeBytes := diag.psramSizeBytes
  internalSramTotal := UInt32.ofNat diag.internalSramTotal
  internalSramFree := UInt32.ofNat diag.internalSramFree
  psramTotal := UInt32.ofNat diag.psramTotal
  psramFree := UInt32.ofNat diag.psramFree

/-- `send_memory_status`: the structure sent. -/
def sendMemoryStatus (mem : MkMemStats) (diag : MkDiagIdentity) : MemoryStatus where
  arenaCapacity := UInt32.ofNat mem.totalCapacity
  arenaUsed := UInt32.ofNat mem.usedBytes
  arenaFree := UInt32.ofNat mem.freeBytes
  arenaPeak := UInt32.ofNat mem.peakUsedBytes
  allocationCount := mem.allocationCount
  freeCount := mem.freeCount
  failedAllocations := mem.failedAllocations
  psramTotal := UInt32.ofNat diag.psramTotal
  psramFree := UInt32.ofNat diag.psramFree

/-- `send_storage_status`: the structure sent. -/
def sendStorageStatus (block : VfsBlock) : StorageStatus where
  totalSectors := block.sectorCount
  freeSectors := if 2 < block.sectorCount then block.sectorCount - 2 else 0
  activeSectors := 1
  obsoleteSectors := 1
  recordCommitCount := 16

/-- `protocol_service_send_log`: the structure sent. -/
def protocolServiceSendLog (level : UInt8) (msg : String) (tick : UInt32) : LogPayload where
  level := level
  timestampMs := tick
  text := cutText 120 msg

/-- `protocol_service_send_terminal`: the structure sent. -/
def protocolServiceSendTerminal (text : String) : TerminalPayload where
  textLen := UInt16.ofNat (min text.toList.length 255)
  text := cutText 256 text

/-! ## What is sent -/

/-- The texts of a device info are stored. -/
def DeviceInfo.Stored (info : DeviceInfo) : Prop :=
  StoredText 24 info.product ∧ StoredText 12 info.version ∧ StoredText 24 info.buildId ∧
    StoredText 24 info.gitRevision ∧ StoredText 16 info.chipFamily

/-- The names of the tasks of a device status are stored. -/
def DeviceStatus.Stored (status : DeviceStatus) : Prop :=
  ∀ task ∈ status.tasks.toList, StoredText 12 task.name

/-- The text of a message to the log is stored. -/
def LogPayload.Stored (log : LogPayload) : Prop := StoredText 120 log.text

/-- The text of a message to the terminal is stored, with its length. -/
def TerminalPayload.Stored (term : TerminalPayload) : Prop :=
  StoredText 256 term.text ∧ term.textLen.toNat = term.text.toList.length

theorem DeviceInfo.Stored.fits {info : DeviceInfo} (h : info.Stored) :
    ∀ f ∈ info.fields, f.Fits := by
  obtain ⟨hproduct, hversion, hbuild, hgit, hchip⟩ := h
  simp [DeviceInfo.fields, hproduct.fits, hversion.fits, hbuild.fits, hgit.fits, hchip.fits]

theorem TaskTelemetry.fits {task : TaskTelemetry} (h : StoredText 12 task.name) :
    ∀ f ∈ task.fields, f.Fits := by
  simp [TaskTelemetry.fields, h.fits]

theorem DeviceStatus.fits (status : DeviceStatus) : ∀ f ∈ status.fields, f.Fits := by
  simp [DeviceStatus.fields]

theorem MemoryStatus.fits (st : MemoryStatus) : ∀ f ∈ st.fields, f.Fits := by
  simp [MemoryStatus.fields]

theorem StorageStatus.fits (st : StorageStatus) : ∀ f ∈ st.fields, f.Fits := by
  simp [StorageStatus.fields]

theorem GameState.fits (game : GameState) : ∀ f ∈ game.fields, f.Fits := by
  simp [GameState.fields]

theorem LogPayload.Stored.fits {log : LogPayload} (h : log.Stored) : ∀ f ∈ log.fields, f.Fits := by
  simp [LogPayload.fields, StoredText.fits h]

theorem TerminalPayload.Stored.fits {term : TerminalPayload} (h : term.Stored) :
    ∀ f ∈ term.fields, f.Fits := by
  simp [TerminalPayload.fields, h.1.fits]

theorem stored_sendDeviceInfo {diag : MkDiagIdentity} (hgit : AsciiText diag.gitRevision)
    (hchip : AsciiText diag.chipFamily) : (sendDeviceInfo diag).Stored := by
  have hproduct : AsciiText "SliverOS" := by simp [AsciiText]
  have hversion : AsciiText "1.0.0" := by simp [AsciiText]
  have hbuild : AsciiText "MK-ESP32-20260904" := by simp [AsciiText]
  exact ⟨hproduct.storedText (by decide), hversion.storedText (by decide),
    hbuild.storedText (by decide), hgit.storedText (by decide), hchip.storedText (by decide)⟩

theorem stored_protocolServiceSendLog {msg : String} (h : AsciiText msg) (level : UInt8)
    (tick : UInt32) : (protocolServiceSendLog level msg tick).Stored :=
  h.storedText (by decide)

theorem stored_protocolServiceSendTerminal {text : String} (h : AsciiText text) :
    (protocolServiceSendTerminal text).Stored := by
  refine ⟨h.storedText (by decide), ?_⟩
  rw [protocolServiceSendTerminal, cutText, String.toList_ofList, List.length_take,
    UInt16.toNat_ofNat_of_lt' (by simp only [UInt16.size]; omega), Nat.min_comm]

theorem length_taskImage (task : TaskTelemetry) : (recordImage task.fields).length = 36 := by
  simp [length_recordImage, TaskTelemetry.fields]

theorem DeviceStatus.length_fields (status : DeviceStatus) :
    (recordImage status.fields).length = 16 := by
  simp [length_recordImage, DeviceStatus.fields]

theorem DeviceStatus.length_image (status : DeviceStatus) : status.image.length = 304 := by
  simp [DeviceStatus.image, tasksImage, List.length_flatMap, length_taskImage, length_fields]

/-- The payload of the frame is what was to be sent, when there is room for it. -/
theorem payloadBytes_sendTypedMessage (frame : SlvrFrame) (txSeq : UInt8) (msg : SlvrMsg)
    {payload : List UInt8} (h : payload.length ≤ 512) :
    (sendTypedMessage frame txSeq msg payload).payloadBytes = payload := by
  have hlen : (UInt16.ofNat payload.length).toNat = payload.length :=
    UInt16.toNat_ofNat_of_lt' (by simp only [UInt16.size]; omega)
  have hroom : ¬ 512 < UInt16.ofNat payload.length := by
    rw [UInt16.lt_iff_toNat_lt, hlen]
    exact Nat.not_lt.2 h
  simp only [SlvrFrame.payloadBytes, sendTypedMessage, if_neg hroom, hlen]
  refine List.ext_getElem (by simpa using h) fun i h₁ h₂ => ?_
  simp [h₂, List.getD_eq_getElem?_getD]

/-- The fields of a structure are read back from the payload of its frame. -/
theorem reads_sendTypedMessage (frame : SlvrFrame) (txSeq : UInt8) (msg : SlvrMsg)
    {fields : List Field} (hfits : ∀ f ∈ fields, f.Fits)
    (hlen : (fields.map Field.width).sum ≤ 512) :
    Reads (sendTypedMessage frame txSeq msg (recordImage fields)).payloadBytes 0 fields := by
  rw [payloadBytes_sendTypedMessage frame txSeq msg (by rwa [length_recordImage]),
    ← List.append_nil (recordImage fields)]
  exact reads_recordImage_zero hfits

end SliverOS
