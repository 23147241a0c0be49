import SliverOS.Protocol.Agreement
import SliverOS.Protocol.AppState
import SliverOS.Protocol.Transmit

/-!
# The messages of the device

What `send_typed_message` of `os/protocol/protocol_service.c` does with a payload: it is cut to
the longest one, numbered with the next sequence number, and sent as a frame. A message is the
type and the payload of this frame (`Message`); those sent since the start are kept
(`Outgoing.sent`), and the frames of them (`Outgoing.frames`) are what goes out:

* `contents_sendAll`: when there is room for all of them, the bytes of some messages are queued
  as those of their frames, the sequence numbers counting on.
-/

namespace SliverOS

open Firmware Queues Wire

/-- The type and the payload of a message. -/
structure Message where
  type : UInt8
  payload : List UInt8
  payload_le : payload.length ≤ maxPayloadLen

namespace Message

/-- What `send_typed_message` makes of a payload. -/
def of (type : UInt8) (payload : List UInt8) : Message :=
  ⟨type, payload.take 512, List.length_take_le _ _⟩

/-- A message as a frame. -/
def frame (m : Message) (sequence : UInt8) : Frame := ⟨m.type, 0, sequence, m.payload, m.payload_le⟩

/-- The number of bytes of a message in a frame. -/
def size (m : Message) : ℕ := frameOverhead + m.payload.length

@[simp] theorem length_bytes_frame (m : Message) (sequence : UInt8) :
    (m.frame sequence).bytes.length = m.size :=
  Frame.length_bytes _

theorem size_le (m : Message) : m.size ≤ 524 := Nat.add_le_add_left m.payload_le _

theorem payload_of {type : UInt8} {payload : List UInt8} (h : payload.length ≤ 512) :
    (Message.of type payload).payload = payload :=
  List.take_of_length_le h

/-- Some messages as frames, numbered from `n` on. -/
def framesFrom (n : ℕ) : List Message → List Frame
  | [] => []
  | m :: ms => m.frame (UInt8.ofNat n) :: framesFrom (n + 1) ms

theorem framesFrom_append (n : ℕ) (ms ms' : List Message) :
    framesFrom n (ms ++ ms') = framesFrom n ms ++ framesFrom (n + ms.length) ms' := by
  induction ms generalizing n with
  | nil => rfl
  | cons m ms ih =>
    rw [List.cons_append, framesFrom, framesFrom, ih, List.length_cons, Nat.add_right_comm,
      Nat.add_assoc, List.cons_append]

@[simp] theorem length_framesFrom (n : ℕ) (ms : List Message) :
    (framesFrom n ms).length = ms.length := by
  induction ms generalizing n with
  | nil => rfl
  | cons m ms ih => rw [framesFrom, List.length_cons, ih, List.length_cons]

/-- What is made of the types and the payloads does not depend on the numbers. -/
theorem filterMap_framesFrom {α : Type*} (f : UInt8 → List UInt8 → Option α) (n : ℕ)
    (ms : List Message) :
    ((framesFrom n ms).map Frame.received).filterMap (fun frame => f frame.type frame.payload) =
      ms.filterMap fun m => f m.type m.payload := by
  induction ms generalizing n with
  | nil => rfl
  | cons m ms ih =>
    rw [framesFrom, List.map_cons, List.filterMap_cons, ih, List.filterMap_cons]
    rfl

theorem mem_framesFrom {n : ℕ} {ms : List Message} {f : Frame} (h : f ∈ framesFrom n ms) :
    ∃ m ∈ ms, ∃ sequence, f = m.frame sequence := by
  induction ms generalizing n with
  | nil => cases h
  | cons m ms ih =>
    rcases List.mem_cons.1 h with rfl | h
    · exact ⟨m, List.mem_cons_self, _, rfl⟩
    · obtain ⟨m', hm', hf⟩ := ih h
      exact ⟨m', List.mem_cons_of_mem m hm', hf⟩

theorem length_flatMap_framesFrom (n : ℕ) (ms : List Message) :
    ((framesFrom n ms).flatMap Frame.bytes).length = (ms.map size).sum := by
  induction ms generalizing n with
  | nil => rfl
  | cons m ms ih =>
    rw [framesFrom, List.flatMap_cons, List.length_append, length_bytes_frame, ih, List.map_cons,
      List.sum_cons]

end Message

/-- The static variables of the sending side, with what lies where `send_typed_message` builds
    its frame, and the messages sent since the start. -/
structure Outgoing where
  txSeq : UInt8
  transmit : Transmit
  stack : SlvrFrame
  sent : List Message

namespace Outgoing

/-- `send_typed_message`. -/
def send (o : Outgoing) (m : Message) : Outgoing :=
  { o with
    txSeq := o.txSeq + 1
    transmit :=
      (o.transmit.protocolServiceSendFrame (sendTypedByte o.stack o.txSeq m.type m.payload)).2
    sent := o.sent ++ [m] }

/-- Some messages are sent, one after the other. -/
def sendAll (o : Outgoing) (ms : List Message) : Outgoing := ms.foldl send o

/-- The frames sent since the start. -/
def frames (o : Outgoing) : List Frame := Message.framesFrom 0 o.sent

/-- The bytes queued. -/
def contents (o : Outgoing) : List UInt8 := o.transmit.mock.contents

/-- There is room for the frames of some messages. -/
def HasRoom (o : Outgoing) (ms : List Message) : Prop :=
  o.contents.length + (ms.map Message.size).sum ≤ 2047

instance (o : Outgoing) (ms : List Message) : Decidable (o.HasRoom ms) :=
  inferInstanceAs (Decidable (_ ≤ _))

/-- The sequence number, and the number of frames, count the messages. -/
structure Numbered (o : Outgoing) : Prop where
  txSeq : o.txSeq = UInt8.ofNat o.sent.length
  txFrames : o.transmit.txFrames = UInt32.ofNat o.sent.length

variable {o : Outgoing} {m : Message} {ms ms' : List Message}

@[simp] theorem sendAll_nil : o.sendAll [] = o := rfl

@[simp] theorem sendAll_cons : o.sendAll (m :: ms) = (o.send m).sendAll ms := rfl

theorem sendAll_append : o.sendAll (ms ++ ms') = (o.sendAll ms).sendAll ms' := List.foldl_append

@[simp] theorem sent_sendAll : (o.sendAll ms).sent = o.sent ++ ms := by
  induction ms generalizing o with
  | nil => exact (List.append_nil _).symm
  | cons m ms ih => rw [sendAll_cons, ih, send, List.append_assoc, List.singleton_append]

@[simp] theorem stack_sendAll : (o.sendAll ms).stack = o.stack := by
  induction ms generalizing o with
  | nil => rfl
  | cons m ms ih => exact ih

/-- The frame sent is that of the message, whatever is on the stack. -/
theorem encoded_sendTypedByte (stack : SlvrFrame) (txSeq : UInt8) (m : Message) :
    Transmit.encoded (sendTypedByte stack txSeq m.type m.payload) = some (m.frame txSeq).bytes := by
  have hle : m.payload.length ≤ 512 := m.payload_le
  have hlen : (UInt16.ofNat m.payload.length).toNat = m.payload.length :=
    UInt16.toNat_ofNat_of_lt' (by simp only [UInt16.size]; omega)
  have hroom : ¬ 512 < UInt16.ofNat m.payload.length := by
    rw [UInt16.lt_iff_toNat_lt, hlen]
    exact Nat.not_lt.2 hle
  have hholds : (sendTypedByte stack txSeq m.type m.payload).Holds (m.frame txSeq) := by
    refine ⟨rfl, rfl, rfl, rfl, ?_, payloadBytes_sendTypedByte stack txSeq m.type hle⟩
    simp only [sendTypedByte, if_neg hroom, hlen]
    rfl
  rw [Transmit.encoded, slvrEncodeFrame_of_holds hholds]
  · rfl
  · rw [Message.length_bytes_frame]
    exact m.size_le

theorem contents_send (h : o.contents.length + m.size ≤ 2047) :
    (o.send m).contents = o.contents ++ (m.frame o.txSeq).bytes := by
  rw [contents, send, Transmit.contents_protocolServiceSendFrame, encoded_sendTypedByte,
    Option.getD_some, List.take_of_length_le]
  · rfl
  · rw [Message.length_bytes_frame]
    exact Nat.le_sub_of_add_le (by rwa [Nat.add_comm])

theorem Numbered.send (h : o.Numbered) (m : Message) : (o.send m).Numbered where
  txSeq := by
    rw [Outgoing.send, h.txSeq, List.length_append, List.length_singleton]
    exact (UInt8.ofNat_add _ _).symm
  txFrames := by
    rw [Outgoing.send, Transmit.protocolServiceSendFrame_of_encoded
      (encoded_sendTypedByte o.stack o.txSeq m), List.length_append, List.length_singleton]
    change o.transmit.txFrames + 1 = _
    rw [h.txFrames]
    exact (UInt32.ofNat_add _ _).symm

theorem Numbered.sendAll (h : o.Numbered) (ms : List Message) : (o.sendAll ms).Numbered := by
  induction ms generalizing o with
  | nil => exact h
  | cons m ms ih => exact ih (h.send m)

/-- With room for them, messages are queued as the bytes of their frames. -/
theorem contents_sendAll (hn : o.Numbered) (h : o.HasRoom ms) :
    (o.sendAll ms).contents =
      o.contents ++ (Message.framesFrom o.sent.length ms).flatMap Frame.bytes := by
  induction ms generalizing o with
  | nil => exact (List.append_nil _).symm
  | cons m ms ih =>
    rw [HasRoom, List.map_cons, List.sum_cons] at h
    have hsend := contents_send (o := o) (m := m) (by omega)
    have hroom : (o.send m).HasRoom ms := by
      rw [HasRoom, hsend, List.length_append, Message.length_bytes_frame]
      omega
    have hlen : (o.send m).sent.length = o.sent.length + 1 := by
      rw [send, List.length_append, List.length_singleton]
    rw [sendAll_cons, ih (hn.send m) hroom, hsend, hlen, hn.txSeq, Message.framesFrom,
      List.flatMap_cons, List.append_assoc]

theorem frames_sendAll :
    (o.sendAll ms).frames = o.frames ++ Message.framesFrom o.sent.length ms := by
  rw [frames, sent_sendAll, Message.framesFrom_append, Nat.zero_add]
  rfl

end Outgoing

end SliverOS
