import SliverOS.Protocol.Browser
import SliverOS.Protocol.Firmware

/-!
# The two sides together

What the firmware and the browser make of the same bytes.

* `wire_compatible`: they encode a frame by the same bytes, and decode the
  encodings of frames, one after the other, as these frames, whichever way the
  stream is cut for the browser.
* `deliveries_agree`: they deliver the same frames of any stream followed by
  enough zeros, when no frame starts inside a candidate the firmware rejects
  (`RejectsClear`). The firmware passes such a candidate whole, where the browser
  looks for a magic again from its second byte: the frame inside is the
  browser's only.
-/

namespace SliverOS

open Streams Wire

/-! ## Encoding -/

/-- A frame of the firmware's code has the fields of `f`, with anything after its
    payload and in its CRC field. -/
structure Firmware.SlvrFrame.Holds (c : Firmware.SlvrFrame) (f : Frame) : Prop where
  version : c.version = version1
  type : c.type = f.type
  flags : c.flags = f.flags
  sequence : c.sequence = f.sequence
  length : c.length.toNat = f.payload.length
  payload : c.payloadBytes = f.payload

/-- An argument of `encodeFrame` has the fields of `f`, those missing being zero
    or empty. -/
structure Browser.FrameArg.Holds (a : Browser.FrameArg) (f : Frame) : Prop where
  type : a.type = f.type.toNat
  flags : a.flags.getD 0 = f.flags.toNat
  sequence : a.sequence.getD 0 = f.sequence.toNat
  payload : a.payload.getD [] = f.payload

theorem Firmware.slvrEncodeFrame_of_holds {c : SlvrFrame} {f : Frame} (h : c.Holds f) {n : ℕ}
    (hn : f.bytes.length ≤ n) : slvrEncodeFrame c n = .ok f.bytes := by
  have hle : c.length ≤ 512 := UInt16.le_iff_toNat_le.2 (h.length ▸ f.payload_le)
  have hf : c.toFrame hle = f := by
    obtain ⟨⟩ := f
    simp only [SlvrFrame.toFrame, h.type, h.flags, h.sequence, h.payload]
  rw [f.length_bytes, ← h.length] at hn
  rw [SlvrFrame.slvrEncodeFrame_eq hle h.version hn, hf]

theorem Browser.encodeFrame_of_holds {a : FrameArg} {f : Frame} (h : a.Holds f) :
    encodeFrame a = .ok f.bytes := by
  have hmask (k : ℕ) : k &&& 0xFF = k % 2 ^ 8 := Nat.and_two_pow_sub_one_eq_mod k 8
  have hbyte (k : ℕ) : UInt8.ofNat (k &&& 0xFF) = UInt8.ofNat k := by
    apply UInt8.toNat_inj.1
    simp [hmask]
  have hbe (k : ℕ) : [UInt8.ofNat ((k >>> 8) &&& 0xFF), UInt8.ofNat (k &&& 0xFF)] = be16 k := by
    rw [hbyte, hbyte, be16, Nat.shiftRight_eq_div_pow]
  have hbody : [version1, UInt8.ofNat f.type.toNat, UInt8.ofNat f.flags.toNat,
      UInt8.ofNat (f.sequence.toNat &&& 0xFF), UInt8.ofNat ((f.payload.length >>> 8) &&& 0xFF),
        UInt8.ofNat (f.payload.length &&& 0xFF)] ++ f.payload = f.body := by
    rw [Frame.body, ← hbe]
    simp [hbyte]
  have hcrc : slvrCrc16 ((magic ++ f.body).drop 4) = f.crc.toNat := slvrCrc16_eq _
  rw [encodeFrame]
  simp only [h.type, h.flags, h.sequence, h.payload, if_neg (Nat.not_lt.2 f.payload_le)]
  rw [List.append_assoc magic, hbody, hcrc, hbe, Frame.bytes]

/-! ## Decoding encodings -/

/-- The parser of the firmware, between frames, decodes the encodings that follow. -/
theorem Firmware.outputs_flatMap_bytes {p : SlvrParser} (hp : p.Good) (hnil : p.pending = [])
    (frames : List Frame) :
    (Transducer.outputs slvrParserFeedByte p (frames.flatMap Frame.bytes)).map
        SlvrFrame.received = frames.map Frame.received ∧
      (Transducer.state slvrParserFeedByte p (frames.flatMap Frame.bytes)).crcErrors =
        p.crcErrors := by
  induction frames generalizing p with
  | nil => exact ⟨rfl, rfl⟩
  | cons f frames ih =>
    have hne : f.bytes ≠ [] := by simp [Frame.bytes, magic]
    obtain ⟨hg, hn, herr, c, hc, hem⟩ := read_rest (f := f) hp (by rw [hnil, List.nil_append]) hne
    obtain ⟨hout, herr'⟩ := ih hg hn
    have hfirst : Transducer.outputs slvrParserFeedByte p f.bytes = [c] := by
      rw [← Transducer.emits_map_snd _ p 0, hem]
      rfl
    rw [List.flatMap_cons, Transducer.outputs_append, Transducer.state_append, herr', herr, hfirst,
      List.map_append, hout, List.map_singleton, hc]
    exact ⟨rfl, rfl⟩

/-- The events of the encodings of frames are these frames. -/
theorem Wire.greedyEvents_flatMap_bytes (frames : List Frame) :
    greedyEvents (frames.flatMap Frame.bytes) = frames.map .frame := by
  induction frames with
  | nil => rfl
  | cons f frames ih =>
    have hv : greedyEvent (f.bytes ++ frames.flatMap Frame.bytes) =
        .item f.bytes.length (.frame f) := by
      rw [greedyEvent, head_eq_frame_iff.2 (List.prefix_append _ _)]
    rw [List.flatMap_cons, greedyEvents, incremental_greedyEvent.scan_item hv, List.drop_left,
      List.map_cons, ← ih]
    rfl

/-- The two sides encode a frame by the same bytes; and the encodings of any
    frames, one after the other, are decoded by both as these frames, without a
    CRC error, whichever way they are cut for the browser. -/
theorem wire_compatible (frames : List Frame) :
    (∀ f ∈ frames, (∀ (c : Firmware.SlvrFrame) (n : ℕ), c.Holds f → f.bytes.length ≤ n →
        Firmware.slvrEncodeFrame c n = .ok f.bytes) ∧
      ∀ a : Browser.FrameArg, a.Holds f → Browser.encodeFrame a = .ok f.bytes) ∧
    ((Transducer.outputs Firmware.slvrParserFeedByte Firmware.slvrParserInit
          (frames.flatMap Frame.bytes)).map Firmware.SlvrFrame.received =
        frames.map Frame.received ∧
      (Transducer.state Firmware.slvrParserFeedByte Firmware.slvrParserInit
        (frames.flatMap Frame.bytes)).crcErrors = 0) ∧
    ∀ chunks : List (List UInt8), chunks.flatten = frames.flatMap Frame.bytes →
      (Browser.SlvrStreamParser.new.feedAll chunks).2 = frames.map Frame.received ∧
        (Browser.SlvrStreamParser.new.feedAll chunks).1.crcErrors = 0 := by
  refine ⟨fun f _ => ⟨fun c n hc hn => Firmware.slvrEncodeFrame_of_holds hc hn,
    fun a ha => Browser.encodeFrame_of_holds ha⟩,
    Firmware.outputs_flatMap_bytes Firmware.good_init rfl frames, fun chunks hchunks => ?_⟩
  obtain ⟨hrec, herr⟩ := Browser.SlvrStreamParser.feedAll_eq chunks
  have hframes : (frames.map Event.frame).filterMap Event.frame? = frames := by
    rw [List.filterMap_map]
    exact List.filterMap_some
  have hcount : (frames.map Event.frame).count .crcError = 0 := by
    rw [List.count_eq_zero]
    simp
  rw [hrec, herr, greedy_eq_filterMap, hchunks, greedyEvents_flatMap_bytes, hframes, hcount]
  exact ⟨rfl, rfl⟩

/-- One frame, encoded by both and cut in three for the browser. -/
theorem wire_compatible_ping :
    Firmware.slvrEncodeFrame ⟨1, 0x8D, 0, 7, 0, Vector.replicate 512 0xAA, 0⟩ 524 =
        .ok pingFrame.bytes ∧
      Browser.encodeFrame ⟨0x8D, none, some 7, none⟩ = .ok pingFrame.bytes ∧
      (Browser.SlvrStreamParser.new.feedAll
        [pingFrame.bytes.take 3, (pingFrame.bytes.drop 3).take 8, pingFrame.bytes.drop 11]).2 =
          [pingFrame.received] := by
  obtain ⟨hencode, _, hbrowser⟩ := wire_compatible [pingFrame]
  obtain ⟨hfirmware, hjs⟩ := hencode pingFrame (List.mem_singleton.2 rfl)
  exact ⟨hfirmware _ 524 ⟨rfl, rfl, rfl, rfl, rfl, rfl⟩ (by decide), hjs _ ⟨rfl, rfl, rfl, rfl⟩,
    (hbrowser _ (by decide +kernel)).1⟩

/-! ## Decoding anything -/

/-- No frame starts inside a candidate that is passed whole. -/
def RejectsClear (s : List UInt8) : Prop :=
  ∀ i n, Visits wholesaleVerdict s i → wholesaleVerdict (s.drop i) = .skip n →
    ∀ j, 0 < j → j < n → ∀ f : Frame, ¬f.bytes <+: s.drop (i + j)

/-- Before enough zeros, every head is told. -/
theorem head_ne_incomplete {s : List UInt8} {k : ℕ} (hk : frameOverhead + maxPayloadLen ≤ k)
    {i : ℕ} (hi : i < (s ++ List.replicate k 0).length) :
    head ((s ++ List.replicate k 0).drop i) ≠ .incomplete := by
  intro h
  have hlt := length_lt_of_incomplete h
  rw [List.length_append, List.length_replicate] at hi
  rw [List.length_drop, List.length_append, List.length_replicate] at hlt
  -- What is left is made of zeros.
  have hzeros : (s ++ List.replicate k 0).drop i =
      0 :: List.replicate (s.length + k - i - 1) (0 : UInt8) := by
    rw [List.drop_append, List.drop_eq_nil_of_le (by omega), List.nil_append, List.drop_replicate,
      ← List.replicate_succ]
    congr 1
    omega
  rw [hzeros, head_of_mismatch (k := 0) (by simp [mismatch, preamble, magic])] at h
  cases h

/-- The two sides deliver the same frames of a stream followed by enough zeros,
    when no frame starts inside a candidate the firmware passes whole. -/
theorem deliveries_agree {s : List UInt8} {k : ℕ} (hk : frameOverhead + maxPayloadLen ≤ k)
    (hclear : RejectsClear (s ++ List.replicate k 0)) {chunks : List (List UInt8)}
    (hchunks : chunks.flatten = s ++ List.replicate k 0) :
    (Transducer.outputs Firmware.slvrParserFeedByte Firmware.slvrParserInit
        (s ++ List.replicate k 0)).map Firmware.SlvrFrame.received =
      (Browser.SlvrStreamParser.new.feedAll chunks).2 := by
  rw [Firmware.outputs_eq_wholesale, (Browser.SlvrStreamParser.feedAll_eq chunks).1, hchunks]
  refine congrArg _ (scan_eq_of_clear incremental_wholesaleVerdict incremental_greedyVerdict
    ?_ ?_ ?_ _ ?_)
  · exact fun t n f h => greedyVerdict_eq_item_iff.2 (wholesaleVerdict_eq_item_iff.1 h)
  · intro t n h
    obtain ⟨hf, hi, _⟩ := wholesaleVerdict_eq_skip_iff.1 h
    exact greedyVerdict_of_head_ne hf hi
  · exact fun t h => greedyVerdict_eq_wait_iff.2 (wholesaleVerdict_eq_wait_iff.1 h)
  · intro i n hi hn j hj hjn
    have hle := (incremental_wholesaleVerdict.skip hn).2.1
    rw [List.length_drop] at hle
    refine greedyVerdict_of_head_ne (fun f hf => ?_) (head_ne_incomplete hk (by omega))
    exact hclear i n hi hn j hj hjn f (head_eq_frame_iff.1 hf)

/-- Zeros are passed one by one. -/
theorem skip_zeros {m n : ℕ} (h : wholesaleVerdict (List.replicate m 0) = .skip n) : n = 1 := by
  cases m with
  | zero => cases h
  | succ m =>
    have hh : head (List.replicate (m + 1) 0) = .mismatch 0 :=
      head_of_mismatch (by simp [List.replicate_succ, mismatch, preamble, magic])
    obtain ⟨_, _, rfl⟩ := wholesaleVerdict_eq_skip_iff.1 h
    simp [hh, rejectedLength, candidateLength]

/-- The frames at the start of a stream are scanned one by one. -/
theorem visits_flatMap_bytes {frames : List Frame} {t : List UInt8} {i : ℕ}
    (h : Visits wholesaleVerdict (frames.flatMap Frame.bytes ++ t) i) :
    (∃ before after, frames = before ++ after ∧ i = (before.flatMap Frame.bytes).length) ∨
      (frames.flatMap Frame.bytes).length ≤ i := by
  -- At the start of a frame, it is the frame that is taken.
  have hitem (before : List Frame) (f : Frame) (after : List Frame) :
      wholesaleVerdict (((before ++ f :: after).flatMap Frame.bytes ++ t).drop
        (before.flatMap Frame.bytes).length) = .item f.bytes.length f := by
    rw [List.flatMap_append, List.append_assoc, List.drop_left, List.flatMap_cons,
      List.append_assoc]
    exact wholesaleVerdict_eq_item_iff.2
      ⟨head_eq_frame_iff.2 (List.prefix_append _ _), rfl⟩
  induction h with
  | start => exact .inl ⟨[], frames, rfl, rfl⟩
  | item _ hv ih =>
    rcases ih with ⟨before, after, rfl, rfl⟩ | hle
    · cases after with
      | nil => exact .inr (by simp)
      | cons f after =>
        rw [hitem] at hv
        obtain ⟨rfl, rfl⟩ := Verdict.item.inj hv
        exact .inl ⟨before ++ [f], after, by simp, by simp⟩
    · exact .inr (by omega)
  | skip _ hv ih =>
    rcases ih with ⟨before, after, rfl, rfl⟩ | hle
    · cases after with
      | nil => exact .inr (by simp)
      | cons f after => rw [hitem] at hv; cases hv
    · exact .inr (by omega)

/-- Frames one after the other are clear. -/
theorem rejectsClear_flatMap_bytes (frames : List Frame) (k : ℕ) :
    RejectsClear (frames.flatMap Frame.bytes ++ List.replicate k 0) := by
  intro i n hi hn j hj hjn
  have hone : n = 1 := by
    have hzeros {i : ℕ} (hle : (frames.flatMap Frame.bytes).length ≤ i)
        (hn : wholesaleVerdict ((frames.flatMap Frame.bytes ++ List.replicate k 0).drop i) =
          .skip n) : n = 1 := by
      rw [List.drop_append, List.drop_eq_nil_of_le hle, List.nil_append,
        List.drop_replicate] at hn
      exact skip_zeros hn
    rcases visits_flatMap_bytes hi with ⟨before, after, rfl, rfl⟩ | hle
    · cases after with
      | nil => exact hzeros (by simp) hn
      | cons f after =>
        rw [List.flatMap_append, List.append_assoc, List.drop_left, List.flatMap_cons,
          List.append_assoc, wholesaleVerdict_eq_item_iff.2
            ⟨head_eq_frame_iff.2 (List.prefix_append _ _), rfl⟩] at hn
        cases hn
    · exact hzeros hle hn
  omega

/-- The two sides agree on a frame followed by zeros. -/
theorem deliveries_agree_ping :
    (Transducer.outputs Firmware.slvrParserFeedByte Firmware.slvrParserInit
        (pingFrame.bytes ++ List.replicate 524 0)).map Firmware.SlvrFrame.received =
      (Browser.SlvrStreamParser.new.feedAll [pingFrame.bytes, List.replicate 524 0]).2 :=
  deliveries_agree (k := 524) (by decide)
    (by simpa only [List.flatMap_cons, List.flatMap_nil, List.append_nil] using
      rejectsClear_flatMap_bytes [pingFrame] 524)
    (by simp only [List.flatten_cons, List.flatten_nil, List.append_nil])

/-- A frame cut short after the header that announces two bytes of payload. -/
def cutShort : List UInt8 := magic ++ [version1, 0x8D, 0, 6, 0, 2]

/-- The frame that comes right after it is the browser's only. -/
theorem frame_lost_after_cutShort :
    (Transducer.outputs Firmware.slvrParserFeedByte Firmware.slvrParserInit
        (cutShort ++ pingFrame.bytes ++ List.replicate 524 0)).map Firmware.SlvrFrame.received =
          [] ∧
      (Browser.SlvrStreamParser.new.feedAll
        [cutShort ++ pingFrame.bytes ++ List.replicate 524 0]).2 = [pingFrame.received] := by
  constructor
  · decide +kernel
  · -- The scan of the stream, of which the parser gives the frames, is faster to evaluate.
    rw [(Browser.SlvrStreamParser.feedAll_eq _).1]
    decide +kernel

end SliverOS
