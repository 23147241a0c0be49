import SliverOS.Protocol.Lifecycle
import SliverOS.Protocol.Unpackers

/-!
# The state of an application, in the browser

`send_app_state` of `os/protocol/protocol_service.c` fills a packed
`slvr_payload_app_state_t`, and the handler of its messages in `_onFrame` of
`flasher/src/protocol/sliver_client.js` reads the payload with offsets of its
own: it takes the counters with the high byte first, and what is after them, the
length of the data included, as the data.

* `onAppState_sent`: the event for each structure sent;
* `onAppState_disagrees`: its data is never that of the structure;
* `runs_iff`, `errors_iff`: its counters are those of the structure exactly when
  both their bytes are the same.
-/

namespace SliverOS

open Bytes Firmware

/-! ## Sending -/

/-- `SLVR_MSG_APP_STATE`. -/
def slvrMsgAppState : UInt8 := 0x05

/-- `send_typed_message` of a type given by its byte, as it is in the source. -/
def sendTypedByte (frame : SlvrFrame) (txSeq type : UInt8) (payload : List UInt8) : SlvrFrame :=
  let len := UInt16.ofNat payload.length
  let length := if 512 < len then 512 else len
  { frame with
    version := 1
    type
    flags := 0
    sequence := txSeq
    length
    payload := Vector.ofFn fun i =>
      if i < length.toNat then payload.getD i 0 else frame.payload.get i }

/-- The payload of the frame is what was to be sent, whatever its type. -/
theorem payloadBytes_sendTypedByte (frame : SlvrFrame) (txSeq type : UInt8)
    {payload : List UInt8} (h : payload.length ≤ 512) :
    (sendTypedByte frame txSeq type payload).payloadBytes = payload :=
  -- The type is not part of the payload.
  payloadBytes_sendTypedMessage frame txSeq .log h

namespace AppStatus

variable (st : AppStatus)

/-- `slvr_payload_app_state_t::data`: the application data in an array cleared
    before. -/
def dataArray : List UInt8 := st.data.take 128 ++ List.replicate (128 - st.data.length) 0

/-- The fields of `slvr_payload_app_state_t` before the data. -/
def fields : List Field :=
  [.u8 st.appId, .u8 st.appState, .u16 st.runsCompleted, .u16 st.errorCount,
    .u16 (UInt16.ofNat st.data.length)]

/-- The bytes of a `slvr_payload_app_state_t`. -/
def image : List UInt8 := recordImage st.fields ++ st.dataArray

@[simp] theorem length_dataArray : st.dataArray.length = 128 := by
  rw [dataArray, List.length_append, List.length_take, List.length_replicate]
  omega

theorem length_fields : (recordImage st.fields).length = 8 := by
  simp [length_recordImage, fields]

theorem length_image : st.image.length = 136 := by
  rw [image, List.length_append, length_fields, length_dataArray]

end AppStatus

/-! ## Receiving -/

namespace Browser

/-- The event `appState`. The numbers of bytes beyond the payload are
    `undefined`. -/
structure AppStateEvent where
  appId : Option ℕ
  state : Option ℕ
  runs : ℕ
  errors : ℕ
  data : List UInt8
  deriving DecidableEq

/-- `payload[offset]`. -/
def byteAt (payload : List UInt8) (offset : ℕ) : Option ℕ := payload[offset]?.map UInt8.toNat

/-- `(payload[offset] << 8) | payload[offset + 1]`, `undefined` being `0` there. -/
def highFirst (payload : List UInt8) (offset : ℕ) : ℕ :=
  ((byteAt payload offset).getD 0 <<< 8) ||| (byteAt payload (offset + 1)).getD 0

/-- The case `MsgType.APP_STATE` of `SliverClient._onFrame`. -/
def onAppState (payload : List UInt8) : AppStateEvent where
  appId := byteAt payload 0
  state := byteAt payload 1
  runs := highFirst payload 2
  errors := highFirst payload 4
  data := payload.drop 6

/-- The event has the values of the structure. -/
structure AppStateEvent.Agrees (e : AppStateEvent) (st : AppStatus) : Prop where
  appId : e.appId = some st.appId.toNat
  state : e.state = some st.appState.toNat
  runs : e.runs = st.runsCompleted.toNat
  errors : e.errors = st.errorCount.toNat
  data : e.data = st.dataArray

/-- A number of 16 bits with its two bytes exchanged. -/
def byteSwap (x : UInt16) : ℕ := x.toNat % 256 * 256 + x.toNat / 256

/-- Both bytes of a number are the same exactly when exchanging them does not
    change it. -/
theorem byteSwap_eq_iff (x : UInt16) : byteSwap x = x.toNat ↔ x.toNat % 256 = x.toNat / 256 := by
  have := x.toNat_lt
  rw [byteSwap]
  omega

/-- What the handler makes of a number with its low byte first. -/
theorem shift_or_eq_byteSwap (x : UInt16) :
    (UInt8.ofNat x.toNat).toNat <<< 8 ||| (UInt8.ofNat (x.toNat / 256)).toNat = byteSwap x := by
  have hhigh : x.toNat / 256 < 2 ^ 8 := by
    have := x.toNat_lt
    omega
  rw [UInt8.toNat_ofNat', UInt8.toNat_ofNat', Nat.mod_eq_of_lt hhigh,
    ← Nat.shiftLeft_add_eq_or_of_lt hhigh, Nat.shiftLeft_eq, byteSwap]

/-! ## Agreement -/

variable (frame : SlvrFrame) (txSeq : UInt8) (st : AppStatus)

/-- The payload of the frame that `send_app_state` sends. -/
def sentPayload : List UInt8 :=
  (sendTypedByte frame txSeq slvrMsgAppState st.image).payloadBytes

theorem sentPayload_eq : sentPayload frame txSeq st = st.image :=
  payloadBytes_sendTypedByte _ _ _ (by rw [st.length_image]; decide)

/-- The event of a structure: the counters have their bytes exchanged, and the
    data has the length of the data before it. -/
theorem onAppState_sent : onAppState (sentPayload frame txSeq st) =
    { appId := some st.appId.toNat
      state := some st.appState.toNat
      runs := byteSwap st.runsCompleted
      errors := byteSwap st.errorCount
      data := toLE 2 (UInt16.ofNat st.data.length).toNat ++ st.dataArray } := by
  have himage : st.image = st.appId :: st.appState ::
      (toLE 2 st.runsCompleted.toNat ++ (toLE 2 st.errorCount.toNat ++
        (toLE 2 (UInt16.ofNat st.data.length).toNat ++ st.dataArray))) := by
    simp [AppStatus.image, AppStatus.fields, recordImage, Field.u8, Field.u16, Field.image, toLE]
  rw [sentPayload_eq, himage, ← shift_or_eq_byteSwap, ← shift_or_eq_byteSwap]
  rfl

/-- The application and its state are those of the structure. -/
theorem appId_state_onAppState :
    (onAppState (sentPayload frame txSeq st)).appId = some st.appId.toNat ∧
      (onAppState (sentPayload frame txSeq st)).state = some st.appState.toNat := by
  rw [onAppState_sent]
  exact ⟨rfl, rfl⟩

theorem runs_iff : (onAppState (sentPayload frame txSeq st)).runs = st.runsCompleted.toNat ↔
    st.runsCompleted.toNat % 256 = st.runsCompleted.toNat / 256 := by
  rw [onAppState_sent]
  exact byteSwap_eq_iff _

theorem errors_iff : (onAppState (sentPayload frame txSeq st)).errors = st.errorCount.toNat ↔
    st.errorCount.toNat % 256 = st.errorCount.toNat / 256 := by
  rw [onAppState_sent]
  exact byteSwap_eq_iff _

/-- There are two bytes too many in the data of the event. -/
theorem length_data_onAppState : (onAppState (sentPayload frame txSeq st)).data.length = 130 := by
  rw [onAppState_sent, List.length_append, length_toLE, st.length_dataArray]

/-- The data of the event is never that of the structure, nor the part of it that
    the length says is there. -/
theorem onAppState_disagrees :
    ¬ (onAppState (sentPayload frame txSeq st)).Agrees st ∧
      (onAppState (sentPayload frame txSeq st)).data ≠ st.data.take 128 := by
  have hlen := length_data_onAppState frame txSeq st
  refine ⟨fun h => ?_, fun h => ?_⟩
  · rw [h.data, st.length_dataArray] at hlen
    omega
  · rw [h, List.length_take] at hlen
    omega

/-- The state of the Wi-Fi diagnostics sent after the start of the firmware, its
    statistics all zero. -/
def bootedWifiState : AppStatus := ⟨1, 2, 0, 0, List.replicate 32 0⟩

theorem sendAppState_booted :
    { Service.booted with wifiStats := List.replicate 32 0 }.sendAppState .wifiDiagnostics =
      .sendAppState bootedWifiState := by
  have hcounts : (MkKernel.booted.apps .wifiDiagnostics).runsCompleted = 0 ∧
      (MkKernel.booted.apps .wifiDiagnostics).errorCount = 0 := by decide +kernel
  rw [Service.sendAppState, Service.appData]
  simp only [Service.booted, MkKernel.booted_ready.2, hcounts, List.length_replicate]
  rfl

/-- The event of that structure has the length of its data in its data. With one
    run completed, it would have 256 of them. -/
theorem bootedWifiState_disagrees :
    ¬ (onAppState (sentPayload .zero 0 bootedWifiState)).Agrees bootedWifiState ∧
      (onAppState (sentPayload .zero 0 bootedWifiState)).data =
        32 :: 0 :: List.replicate 128 0 ∧
      (onAppState (sentPayload .zero 0 { bootedWifiState with runsCompleted := 1 })).runs =
        256 := by
  refine ⟨fun h => ?_, ?_, ?_⟩
  · have hlen := congrArg List.length h.data
    rw [length_data_onAppState, AppStatus.length_dataArray] at hlen
    omega
  · rw [onAppState_sent]
    decide
  · rw [onAppState_sent]
    decide

end Browser

end SliverOS
