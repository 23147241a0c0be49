import SliverOS.Protocol.Firmware
import SliverOS.Queues.Gap

/-!
# The bytes transmitted by the host build

The transmit side of `os/protocol/protocol_service.c` on a host: frames are encoded
into a ring of 2048 bytes, one of them free, and popped from it.

The bytes of a frame are queued one at a time, and those for which there is no room
are lost (`contents_protocolServiceSendFrame`): the frame is cut short, and it is
counted as any other. So the bytes popped are those of whole frames, and the frames
that do not fit are not counted, if and only if every frame fits
(`streamIntegrity_iff`).
-/

namespace SliverOS

open Firmware Queues

/-- `MOCK_BUFFER_SIZE` is not zero. -/
instance neZeroMockBufferSize : NeZero 2048 := ⟨by decide⟩

/-- The static variables of the transmit side. -/
structure Transmit where
  mock : GapRing 2048 UInt8
  txFrames : UInt32

namespace Transmit

/-- `write_raw_bytes`. -/
def writeRawBytes (t : Transmit) (data : List UInt8) : Transmit :=
  { t with mock := t.mock.offerAll data }

/-- `protocol_service_send_frame`. -/
def protocolServiceSendFrame (t : Transmit) (frame : SlvrFrame) : MkStatus × Transmit :=
  match slvrEncodeFrame frame 524 with
  | .error status => (status, t)
  | .ok raw => (.ok, { t.writeRawBytes raw with txFrames := t.txFrames + 1 })

/-- `protocol_service_pop_tx_bytes`: the bytes popped. -/
def protocolServicePopTxBytes (t : Transmit) (maxLen : ℕ) : List UInt8 × Transmit :=
  let (bytes, mock) := t.mock.take maxLen
  (bytes, { t with mock })

/-- `protocol_service_reset_mock`. -/
def protocolServiceResetMock (t : Transmit) : Transmit :=
  { t with mock := { t.mock with head := 0, tail := 0 } }

/-! ## Runs -/

/-- A call of the transmit side. -/
inductive Call
  | send (frame : SlvrFrame)
  | pop (maxLen : ℕ)

/-- The transmit side after a call. -/
def exec (t : Transmit) : Call → Transmit
  | .send frame => (t.protocolServiceSendFrame frame).2
  | .pop maxLen => (t.protocolServicePopTxBytes maxLen).2

/-- The bytes that a call pops. -/
def out (t : Transmit) : Call → List UInt8
  | .send _ => []
  | .pop maxLen => (t.protocolServicePopTxBytes maxLen).1

/-- The transmit side after some calls. -/
def run (t : Transmit) : List Call → Transmit
  | [] => t
  | c :: cs => (t.exec c).run cs

/-- The bytes that some calls pop. -/
def popped (t : Transmit) : List Call → List UInt8
  | [] => []
  | c :: cs => t.out c ++ (t.exec c).popped cs

/-- The frame that a call sends. -/
def Call.frame? : Call → Option SlvrFrame
  | send frame => some frame
  | pop _ => none

/-- The frames that some calls send. -/
def sends (cs : List Call) : List SlvrFrame := cs.filterMap Call.frame?

/-- The bytes of a frame, if it can be encoded. -/
def encoded (frame : SlvrFrame) : Option (List UInt8) := (slvrEncodeFrame frame 524).toOption

/-- A frame fits in the room that there is. -/
def Fits (t : Transmit) (frame : SlvrFrame) : Prop :=
  ∀ raw, encoded frame = some raw → t.mock.contents.length + raw.length ≤ 2047

/-- At any time the bytes popped are the first ones of whole frames, some of those sent
    and in their order, and a frame that does not fit changes nothing. -/
structure StreamIntegrity (t : Transmit) (cs : List Call) : Prop where
  stream : ∀ done rest, cs = done ++ rest → ∃ frames : List SlvrFrame,
    frames.Sublist (sends done) ∧ (∀ frame ∈ frames, (encoded frame).isSome) ∧
      t.popped done <+: (frames.filterMap encoded).flatten
  dropped : ∀ done frame rest, cs = done ++ .send frame :: rest → ¬(t.run done).Fits frame →
    ((t.run done).protocolServiceSendFrame frame).2 = t.run done

variable {t : Transmit} {frame : SlvrFrame} {raw : List UInt8} {cs : List Call}

/-! ## Calls -/

theorem protocolServiceSendFrame_of_encoded (h : encoded frame = some raw) :
    t.protocolServiceSendFrame frame =
      (.ok, { t.writeRawBytes raw with txFrames := t.txFrames + 1 }) := by
  rw [protocolServiceSendFrame]
  rw [encoded] at h
  cases hencode : slvrEncodeFrame frame 524 with
  | error status =>
    rw [hencode] at h
    cases h
  | ok raw' =>
    rw [hencode] at h
    rw [Option.some.inj h]

theorem protocolServiceSendFrame_of_not_encoded (h : encoded frame = none) :
    (t.protocolServiceSendFrame frame).2 = t := by
  rw [protocolServiceSendFrame]
  rw [encoded] at h
  cases hencode : slvrEncodeFrame frame 524 with
  | error status => rfl
  | ok raw =>
    rw [hencode] at h
    cases h

/-- A frame is queued as far as there is room. -/
theorem contents_protocolServiceSendFrame (t : Transmit) (frame : SlvrFrame) :
    (t.protocolServiceSendFrame frame).2.mock.contents = t.mock.contents ++
      ((encoded frame).getD []).take (2047 - t.mock.contents.length) := by
  cases hraw : encoded frame with
  | none =>
    rw [protocolServiceSendFrame_of_not_encoded hraw, Option.getD_none, List.take_nil,
      List.append_nil]
  | some raw =>
    rw [protocolServiceSendFrame_of_encoded hraw]
    exact t.mock.contents_offerAll raw

/-- A frame that does not fit is counted. -/
theorem protocolServiceSendFrame_ne (h : ¬t.Fits frame) :
    (t.protocolServiceSendFrame frame).2 ≠ t := by
  intro heq
  rw [Fits] at h
  push Not at h
  obtain ⟨raw, hraw, -⟩ := h
  rw [protocolServiceSendFrame_of_encoded hraw] at heq
  have hcount : t.txFrames + 1 = t.txFrames := congrArg txFrames heq
  rw [add_eq_left] at hcount
  exact absurd hcount (by decide)

/-- The bytes popped and those left are what was there, and what comes if it fits. -/
theorem out_append_contents (t : Transmit) (c : Call)
    (h : ∀ frame, c = .send frame → t.Fits frame) :
    t.out c ++ (t.exec c).mock.contents =
      t.mock.contents ++ (c.frame?.bind encoded).getD [] := by
  cases c with
  | send frame =>
    rw [out, exec, contents_protocolServiceSendFrame, List.nil_append]
    congr 1
    cases hraw : encoded frame with
    | none => simp [Call.frame?, hraw]
    | some raw =>
      have hfits := h frame rfl raw hraw
      simp only [Call.frame?, Option.bind_some, hraw, Option.getD_some]
      exact List.take_of_length_le (by omega)
  | pop maxLen =>
    obtain ⟨hbytes, hrest⟩ := t.mock.take_eq maxLen
    change (t.mock.take maxLen).1 ++ (t.mock.take maxLen).2.contents = t.mock.contents ++ []
    rw [hbytes, hrest, List.take_append_drop, List.append_nil]

/-- When every frame fits, the bytes popped and those left are the bytes of the frames. -/
theorem popped_append_contents
    (h : ∀ done frame rest, cs = done ++ .send frame :: rest → (t.run done).Fits frame) :
    t.popped cs ++ (t.run cs).mock.contents =
      t.mock.contents ++ ((sends cs).filterMap encoded).flatten := by
  induction cs generalizing t with
  | nil => exact (List.append_nil _).symm
  | cons c cs ih =>
    have hstep := t.out_append_contents c fun frame hc => h [] frame cs (by rw [hc]; rfl)
    have hrest := ih (t := t.exec c) fun done frame rest heq =>
      h (c :: done) frame rest (by rw [heq]; rfl)
    have hsends : ((sends (c :: cs)).filterMap encoded).flatten =
        (c.frame?.bind encoded).getD [] ++ ((sends cs).filterMap encoded).flatten := by
      cases hframe : c.frame? with
      | none => simp [sends, hframe]
      | some frame =>
        cases hraw : encoded frame with
        | none => simp [sends, hframe, hraw]
        | some raw => simp [sends, hframe, hraw]
    rw [popped, run, hsends, List.append_assoc, hrest, ← List.append_assoc, hstep,
      List.append_assoc]

/-! ## The stream -/

theorem contents_protocolServiceResetMock (t : Transmit) :
    t.protocolServiceResetMock.mock.contents = [] := by
  rw [← List.length_eq_zero_iff, GapRing.length_contents]
  rfl

/-- The stream is in order, over all of the calls since a reset, if and only if every
    frame that is sent fits in the room that there is. -/
theorem streamIntegrity_iff (t : Transmit) (cs : List Call) :
    StreamIntegrity t.protocolServiceResetMock cs ↔
      ∀ done frame rest, cs = done ++ .send frame :: rest →
        (t.protocolServiceResetMock.run done).Fits frame := by
  constructor
  · intro h done frame rest heq
    by_contra hno
    exact protocolServiceSendFrame_ne hno (h.dropped done frame rest heq hno)
  · intro h
    refine ⟨fun done rest heq => ?_, fun done frame rest heq hno => ?_⟩
    · have hfits : ∀ done' frame rest', done = done' ++ .send frame :: rest' →
          (t.protocolServiceResetMock.run done').Fits frame := fun done' frame rest' heq' =>
        h done' frame (rest' ++ rest) (by rw [heq, heq', List.append_assoc]; rfl)
      have hbytes := popped_append_contents hfits
      rw [contents_protocolServiceResetMock, List.nil_append] at hbytes
      -- The frames that cannot be encoded are left out.
      refine ⟨(sends done).filter fun frame => (encoded frame).isSome, List.filter_sublist,
        fun frame hframe => (List.mem_filter.1 hframe).2, ?_⟩
      have hencoded : (fun frame => if (encoded frame).isSome then encoded frame else none) =
          encoded := by
        funext frame
        cases encoded frame with
        | none => rfl
        | some raw => rfl
      rw [List.filterMap_filter, hencoded]
      exact ⟨_, hbytes⟩
    · exact absurd (h done frame rest heq) hno

/-- A frame with the longest payload. -/
def longFrame : SlvrFrame := ⟨1, 0x8D, 0, 0, 512, Vector.replicate 512 0xAA, 0⟩

theorem length_encoded_longFrame : ((encoded longFrame).getD []).length = 524 := by
  decide +kernel

/-- A ring without bytes. -/
def idle : Transmit := ⟨⟨fun _ => 0, 0, 0⟩, 0⟩

/-- Of four of these frames, the last one is cut short. -/
theorem fourth_frame_cut : ¬StreamIntegrity idle.protocolServiceResetMock
    [.send longFrame, .send longFrame, .send longFrame, .send longFrame] := by
  intro h
  have hlen := length_encoded_longFrame
  obtain ⟨raw, hraw⟩ : ∃ raw, encoded longFrame = some raw := by
    cases hraw : encoded longFrame with
    | none =>
      rw [hraw] at hlen
      cases hlen
    | some raw => exact ⟨raw, rfl⟩
  have hqueued : (idle.protocolServiceResetMock.run
      [.send longFrame, .send longFrame, .send longFrame]).mock.contents.length = 3 * 524 := by
    simp [run, exec, contents_protocolServiceSendFrame, hlen, contents_protocolServiceResetMock]
  have hno : ¬(idle.protocolServiceResetMock.run
      [.send longFrame, .send longFrame, .send longFrame]).Fits longFrame := by
    intro hfits
    have hroom := hfits raw hraw
    rw [hraw, Option.getD_some] at hlen
    omega
  exact protocolServiceSendFrame_ne hno
    (h.dropped [.send longFrame, .send longFrame, .send longFrame] longFrame [] rfl hno)

end Transmit

end SliverOS
