import SliverOS.Kernel.Types
import SliverOS.Protocol.Wire
import SliverOS.Streams.Transducer

/-!
# The firmware side of the protocol

The frames, the stream parser and the encoder of `os/protocol/host_protocol.c`.

The parser is a state machine fed one byte at a time, keeping in its current
frame the fields read so far. Read back, these are the bytes of the candidate
it is reading (`SlvrParser.pending`), under the invariant of what each state
says of the fields (`SlvrParser.Good`). They are all there is to know of the
past: the parser is the wholesale scan of its stream, symbol by symbol
(`feedByte_refines`), so that

* `outputs_eq_wholesale`: it delivers the frames found by this scan;
* `tracks_feedByte`: what it delivers is what its last bytes encode;
* `payload_within_buffer`: it stores the payload inside the buffer of its frame, and
  the whole of it before the CRC.
-/

namespace SliverOS.Firmware

open Streams Wire

/-! ## The code -/

/-- `slvr_frame_t`. -/
structure SlvrFrame where
  version : UInt8
  type : UInt8
  flags : UInt8
  sequence : UInt8
  length : UInt16
  payload : Vector UInt8 512
  crc16 : UInt16
  deriving DecidableEq

/-- `slvr_parser_state_t`. -/
inductive SlvrParserState
  | magic0
  | magic1
  | magic2
  | magic3
  | version
  | type
  | flags
  | seq
  | lenH
  | lenL
  | payload
  | crcH
  | crcL
  deriving DecidableEq

/-- `slvr_parser_t`. -/
structure SlvrParser where
  state : SlvrParserState
  currentFrame : SlvrFrame
  payloadIdx : UInt16
  droppedBytes : UInt32
  framesReceived : UInt32
  crcErrors : UInt32
  deriving DecidableEq

/-- A frame of zeros, as `memset` leaves it. -/
def SlvrFrame.zero : SlvrFrame := ⟨0, 0, 0, 0, 0, Vector.replicate 512 0, 0⟩

/-- `slvr_parser_init`. -/
def slvrParserInit : SlvrParser := ⟨.magic0, .zero, 0, 0, 0, 0⟩

/-- The header bytes under the CRC, as the parser and the encoder lay them out. -/
def SlvrFrame.headerBytes (c : SlvrFrame) : List UInt8 :=
  [c.version, c.type, c.flags, c.sequence, (c.length >>> 8).toUInt8, (c.length &&& 0xFF).toUInt8]

/-- The payload bytes in use. -/
def SlvrFrame.payloadBytes (c : SlvrFrame) : List UInt8 := c.payload.toList.take c.length.toNat

/-- The CRC the parser expects: that of the header, continued over the payload. -/
def expectedCrc (c : SlvrFrame) : UInt16 :=
  let crc := slvrCrc16 c.headerBytes
  if 0 < c.length then c.payloadBytes.foldl crcByte crc else crc

/-- `slvr_parser_feed_byte`: the parser after the byte, and the frame it
    delivers when the call returns true. -/
def slvrParserFeedByte (p : SlvrParser) (byte : UInt8) : SlvrParser × Option SlvrFrame :=
  let c := p.currentFrame
  match p.state with
  | .magic0 =>
    if byte = 0x53 then ({ p with state := .magic1 }, none)
    else ({ p with droppedBytes := p.droppedBytes + 1 }, none)
  | .magic1 =>
    if byte = 0x4C then ({ p with state := .magic2 }, none)
    else if byte = 0x53 then
      ({ p with state := .magic1, droppedBytes := p.droppedBytes + 1 }, none)
    else ({ p with state := .magic0, droppedBytes := p.droppedBytes + 2 }, none)
  | .magic2 =>
    if byte = 0x56 then ({ p with state := .magic3 }, none)
    else ({ p with state := .magic0, droppedBytes := p.droppedBytes + 3 }, none)
  | .magic3 =>
    if byte = 0x52 then ({ p with state := .version }, none)
    else ({ p with state := .magic0, droppedBytes := p.droppedBytes + 4 }, none)
  | .version =>
    if byte = version1 then
      ({ p with currentFrame := { c with version := byte }, state := .type }, none)
    else ({ p with state := .magic0, droppedBytes := p.droppedBytes + 1 }, none)
  | .type => ({ p with currentFrame := { c with type := byte }, state := .flags }, none)
  | .flags => ({ p with currentFrame := { c with flags := byte }, state := .seq }, none)
  | .seq => ({ p with currentFrame := { c with sequence := byte }, state := .lenH }, none)
  | .lenH =>
    ({ p with currentFrame := { c with length := byte.toUInt16 <<< 8 }, state := .lenL }, none)
  | .lenL =>
    let length := c.length ||| byte.toUInt16
    let p := { p with currentFrame := { c with length } }
    if 512 < length then
      -- Length exceeds safe buffer boundary.
      ({ p with state := .magic0, droppedBytes := p.droppedBytes + 1 }, none)
    else if length = 0 then ({ p with payloadIdx := 0, state := .crcH }, none)
    else ({ p with payloadIdx := 0, state := .payload }, none)
  | .payload =>
    let payload := c.payload.setIfInBounds p.payloadIdx.toNat byte
    let p := { p with currentFrame := { c with payload }, payloadIdx := p.payloadIdx + 1 }
    if c.length ≤ p.payloadIdx then ({ p with state := .crcH }, none) else (p, none)
  | .crcH =>
    ({ p with currentFrame := { c with crc16 := byte.toUInt16 <<< 8 }, state := .crcL }, none)
  | .crcL =>
    let c := { c with crc16 := c.crc16 ||| byte.toUInt16 }
    let p := { p with currentFrame := c, state := .magic0 }
    if c.crc16 = expectedCrc c then
      ({ p with framesReceived := p.framesReceived + 1 }, some c)
    else ({ p with crcErrors := p.crcErrors + 1 }, none)

/-- `slvr_encode_frame`: the bytes written to a buffer of `maxBufLen` bytes. -/
def slvrEncodeFrame (c : SlvrFrame) (maxBufLen : ℕ) : Except MkStatus (List UInt8) :=
  if 512 < c.length then .error .invalidArg
  else if maxBufLen < frameOverhead + c.length.toNat then .error .noMemory
  else
    let crc := slvrCrc16 (c.headerBytes ++ c.payloadBytes)
    .ok (magic ++ c.headerBytes ++ c.payloadBytes ++
      [(crc >>> 8).toUInt8, (crc &&& 0xFF).toUInt8])

/-- What the receiver of a delivered frame can use: its fields, and as many
    payload bytes as its length says. -/
def SlvrFrame.received (c : SlvrFrame) : Received where
  version := c.version
  type := c.type
  flags := c.flags
  sequence := c.sequence
  length := c.length.toNat
  payload := c.payloadBytes
  crc := c.crc16.toNat

/-! ## Words -/

theorem be16_toNat (n : UInt16) : be16 n.toNat = [(n >>> 8).toUInt8, (n &&& 0xFF).toUInt8] := by
  have hhi : UInt8.ofNat (n.toNat / 256) = (n >>> 8).toUInt8 := by
    apply UInt8.toNat_inj.1
    simp [Nat.shiftRight_eq_div_pow]
  have hlo : UInt8.ofNat n.toNat = (n &&& 0xFF).toUInt8 := by
    apply UInt8.toNat_inj.1
    have hmask (k : ℕ) : k &&& 255 = k % 2 ^ 8 := Nat.and_two_pow_sub_one_eq_mod k 8
    simp [hmask]
  rw [be16, hhi, hlo]

/-- A word put together from its bytes, as `LEN_L` and `CRC_L` do. -/
theorem word_toNat (hi lo : UInt8) :
    ((hi.toUInt16 <<< 8) ||| lo.toUInt16).toNat = ofBe16 hi lo := by
  have hlo := lo.toNat_lt
  have hhi := hi.toNat_lt
  have hor := Nat.shiftLeft_add_eq_or_of_lt (i := 8) hlo hi.toNat
  simp only [UInt16.toNat_or, UInt16.toNat_shiftLeft, UInt8.toNat_toUInt16, UInt16.reduceToNat,
    Nat.reduceMod]
  rw [Nat.mod_eq_of_lt (by simp only [Nat.shiftLeft_eq]; omega), ← hor, ofBe16, Nat.shiftLeft_eq]

theorem shiftRight_toUInt8 (hi : UInt8) : ((hi.toUInt16 <<< 8) >>> 8).toUInt8 = hi := by
  have hhi := hi.toNat_lt
  apply UInt8.toNat_inj.1
  simp [Nat.shiftRight_eq_div_pow, Nat.shiftLeft_eq]
  omega

/-! ## Pending bytes -/

namespace SlvrParser

/-- The bytes of the candidate being read, read back from the parser. -/
def pending (p : SlvrParser) : List UInt8 :=
  let c := p.currentFrame
  match p.state with
  | .magic0 => []
  | .magic1 => [0x53]
  | .magic2 => [0x53, 0x4C]
  | .magic3 => [0x53, 0x4C, 0x56]
  | .version => magic
  | .type => magic ++ [c.version]
  | .flags => magic ++ [c.version, c.type]
  | .seq => magic ++ [c.version, c.type, c.flags]
  | .lenH => magic ++ [c.version, c.type, c.flags, c.sequence]
  | .lenL => magic ++ [c.version, c.type, c.flags, c.sequence, (c.length >>> 8).toUInt8]
  | .payload => magic ++ c.headerBytes ++ c.payload.toList.take p.payloadIdx.toNat
  | .crcH => magic ++ c.headerBytes ++ c.payloadBytes
  | .crcL => magic ++ c.headerBytes ++ c.payloadBytes ++ [(c.crc16 >>> 8).toUInt8]

/-- What a state of the parser says of the fields read so far. -/
def Good (p : SlvrParser) : Prop :=
  let c := p.currentFrame
  match p.state with
  | .magic0 | .magic1 | .magic2 | .magic3 | .version => True
  | .type | .flags | .seq | .lenH => c.version = version1
  | .lenL => c.version = version1 ∧ ∃ hi : UInt8, c.length = hi.toUInt16 <<< 8
  | .payload => c.version = version1 ∧ c.length ≤ 512 ∧ p.payloadIdx < c.length
  | .crcH => c.version = version1 ∧ c.length ≤ 512 ∧ p.payloadIdx = c.length
  | .crcL => c.version = version1 ∧ c.length ≤ 512 ∧ p.payloadIdx = c.length ∧
      ∃ hi : UInt8, c.crc16 = hi.toUInt16 <<< 8

end SlvrParser

theorem good_init : slvrParserInit.Good := trivial

namespace SlvrFrame

variable {c : SlvrFrame}

theorem length_payloadBytes (h : c.length ≤ 512) : c.payloadBytes.length = c.length.toNat := by
  have : c.length.toNat ≤ 512 := UInt16.le_iff_toNat_le.1 h
  simp [payloadBytes]
  omega

/-- The frame that a frame of the code stands for, when its length allows. -/
def toFrame (c : SlvrFrame) (h : c.length ≤ 512) : Frame :=
  ⟨c.type, c.flags, c.sequence, c.payloadBytes, by
    rw [length_payloadBytes h]
    exact UInt16.le_iff_toNat_le.1 h⟩

theorem headerBytes_eq : c.headerBytes =
    [c.version, c.type, c.flags, c.sequence] ++ be16 c.length.toNat := by
  rw [be16_toNat]
  rfl

/-- The bytes under the CRC are those of the format. -/
theorem header_payload_eq_body (h : c.length ≤ 512) (hv : c.version = version1) :
    c.headerBytes ++ c.payloadBytes = (c.toFrame h).body := by
  rw [headerBytes_eq, hv, Frame.body, toFrame, length_payloadBytes h]

/-- The CRC computed in two pieces is that of the format. -/
theorem expectedCrc_eq (h : c.length ≤ 512) (hv : c.version = version1) :
    expectedCrc c = (c.toFrame h).crc := by
  rw [Frame.crc, ← header_payload_eq_body h hv, slvrCrc16, List.foldl_append]
  rw [expectedCrc]
  split
  · rfl
  · rename_i hzero
    have hlen : c.length.toNat = 0 :=
      Nat.eq_zero_of_not_pos fun h => hzero (UInt16.lt_iff_toNat_lt.2 h)
    have hnil : c.payloadBytes = [] := by simp [payloadBytes, hlen]
    simp only [hnil, List.foldl_nil, slvrCrc16]

/-- A delivered frame is received as the frame it stands for, its CRC being right. -/
theorem received_eq (h : c.length ≤ 512) (hv : c.version = version1)
    (hcrc : c.crc16 = (c.toFrame h).crc) : c.received = (c.toFrame h).received := by
  simp only [received, Frame.received, hv, hcrc]
  simp only [toFrame, length_payloadBytes h]

/-- Encoding a frame of version 1 gives its bytes on the wire. -/
theorem slvrEncodeFrame_eq (h : c.length ≤ 512) (hv : c.version = version1) {n : ℕ}
    (hn : frameOverhead + c.length.toNat ≤ n) :
    slvrEncodeFrame c n = .ok (c.toFrame h).bytes := by
  have hlong : ¬512 < c.length := UInt16.not_lt.2 h
  rw [slvrEncodeFrame]
  simp only [hlong, Nat.not_lt.2 hn, if_false]
  rw [← be16_toNat, header_payload_eq_body h hv, List.append_assoc magic,
    header_payload_eq_body h hv]
  rfl

/-- A frame received as a frame of the format stands for it. -/
theorem of_received_eq {f : Frame} (h : c.received = f.received) :
    c.version = version1 ∧ ∃ hle : c.length ≤ 512, c.toFrame hle = f := by
  simp only [received, Frame.received, Received.mk.injEq] at h
  obtain ⟨hv, ht, hf, hs, hlen, hpay, _⟩ := h
  have hle : c.length ≤ 512 := UInt16.le_iff_toNat_le.2 (hlen ▸ f.payload_le)
  refine ⟨hv, hle, ?_⟩
  obtain ⟨⟩ := f
  simp only [toFrame, ht, hf, hs, hpay]

end SlvrFrame

/-- With nothing pending, the parser is between frames. -/
theorem SlvrParser.state_eq_of_pending {p : SlvrParser} (h : p.pending = []) :
    p.state = .magic0 := by
  obtain ⟨state, c, idx, dropped, received, errors⟩ := p
  cases state with
  | magic0 => rfl
  | _ => simp [SlvrParser.pending, magic] at h

/-! ## The parser is the wholesale scan -/

/-- A candidate with its header read, but not all of its payload and CRC. -/
theorem head_headerBytes {c : SlvrFrame} (hv : c.version = version1) (hle : c.length ≤ 512)
    {rest : List UInt8} (hlt : rest.length < c.length.toNat + 2) :
    head (magic ++ c.headerBytes ++ rest) = .incomplete := by
  have hlen : ofBe16 (UInt8.ofNat (c.length.toNat / 256)) (UInt8.ofNat c.length.toNat) =
      c.length.toNat := ofBe16_be16 c.length.toNat_lt
  have hs := Shape.unfinished c.type c.flags c.sequence (UInt8.ofNat (c.length.toNat / 256))
    (UInt8.ofNat c.length.toNat) (by rw [hlen]; exact UInt16.le_iff_toNat_le.1 hle) (by rwa [hlen])
  rw [SlvrFrame.headerBytes_eq, hv]
  exact hs.head_eq

/-- A candidate with its header and payload read, and two bytes of CRC. -/
theorem head_crc {c : SlvrFrame} (hv : c.version = version1) (hle : c.length ≤ 512)
    (hi lo : UInt8) :
    head (magic ++ c.headerBytes ++ c.payloadBytes ++ [hi] ++ [lo]) =
      checkCrc (c.toFrame hle) [hi, lo] := by
  rw [List.append_assoc magic, SlvrFrame.header_payload_eq_body hle hv]
  have hcrc : [hi, lo].length = 2 := rfl
  simpa using head_body (c.toFrame hle) hcrc []

/-- The pending bytes are not told to be anything yet. -/
theorem head_pending {p : SlvrParser} (hp : p.Good) : head p.pending = .incomplete := by
  obtain ⟨state, c, idx, dropped, received, errors⟩ := p
  cases state with
  | magic0 | magic1 | magic2 | magic3 | version => rfl
  | type | flags | seq | lenH =>
    have hv : c.version = version1 := hp
    simp [SlvrParser.pending, head, mismatch, preamble, magic, hv]
  | lenL =>
    have hv : c.version = version1 := hp.1
    simp [SlvrParser.pending, head, mismatch, preamble, magic, hv]
  | payload =>
    obtain ⟨hv, hle, hidx⟩ := hp
    have hidx : idx.toNat < c.length.toNat := UInt16.lt_iff_toNat_lt.1 hidx
    exact head_headerBytes hv hle (by simp; omega)
  | crcH =>
    obtain ⟨hv, hle, _⟩ := hp
    exact head_headerBytes hv hle (by rw [SlvrFrame.length_payloadBytes hle]; omega)
  | crcL =>
    obtain ⟨hv, hle, _⟩ := hp
    rw [SlvrParser.pending, List.append_assoc _ c.payloadBytes]
    refine head_headerBytes hv hle ?_
    rw [List.length_append, SlvrFrame.length_payloadBytes hle, List.length_singleton]
    omega

/-- What a byte does to the parser, in terms of the scan of its pending bytes:
    the invariant is kept, and the pending bytes, the frame delivered and the
    CRC errors are those of the scan. -/
structure Refines (p : SlvrParser) (b : UInt8) : Prop where
  good : (slvrParserFeedByte p b).1.Good
  pending : (slvrParserFeedByte p b).1.pending = (online wholesaleVerdict p.pending b).1
  received : (slvrParserFeedByte p b).2.map SlvrFrame.received =
    (online wholesaleVerdict p.pending b).2.map Frame.received
  crcErrors : (slvrParserFeedByte p b).1.crcErrors =
    if (head (p.pending ++ [b])).isBadCrc then p.crcErrors + 1 else p.crcErrors

section

variable {p : SlvrParser} {b : UInt8}

/-- A byte kept pending. -/
theorem Refines.of_kept {q : SlvrParser} (h : slvrParserFeedByte p b = (q, none)) (hq : q.Good)
    (hpend : q.pending = p.pending ++ [b]) (herr : q.crcErrors = p.crcErrors) : Refines p b := by
  have hi : head (p.pending ++ [b]) = .incomplete := hpend ▸ head_pending hq
  have hon := online_incomplete hi
  refine ⟨?_, ?_, ?_, ?_⟩ <;> rw [h]
  · exact hq
  · rw [hon, hpend]
  · rw [hon]
    rfl
  · rw [hi, herr]
    rfl

/-- A candidate rejected, with nothing left pending. -/
theorem Refines.of_rejected (hp : p.Good) {q : SlvrParser}
    (h : slvrParserFeedByte p b = (q, none)) (hstate : q.state = .magic0)
    (hf : ∀ f, head (p.pending ++ [b]) ≠ .frame f) (hi : head (p.pending ++ [b]) ≠ .incomplete)
    (hS : ¬(head (p.pending ++ [b]) = .mismatch 1 ∧ b = 0x53))
    (herr : q.crcErrors =
      if (head (p.pending ++ [b])).isBadCrc then p.crcErrors + 1 else p.crcErrors) :
    Refines p b := by
  have hon := online_rejected (head_pending hp) hf hi
  rw [if_neg hS] at hon
  refine ⟨?_, ?_, ?_, ?_⟩ <;> rw [h]
  · simp [SlvrParser.Good, hstate]
  · rw [hon]
    simp [SlvrParser.pending, hstate]
  · rw [hon]
    rfl
  · exact herr

/-- A candidate rejected by its preamble. -/
theorem Refines.of_mismatch (hp : p.Good) {q : SlvrParser}
    (h : slvrParserFeedByte p b = (q, none)) (hstate : q.state = .magic0)
    (herr : q.crcErrors = p.crcErrors) {k : ℕ}
    (hk : mismatch (p.pending ++ [b]) preamble = some k) (hS : ¬(k = 1 ∧ b = 0x53)) :
    Refines p b := by
  have hh := head_of_mismatch hk
  exact .of_rejected hp h hstate (by simp [hh]) (by simp [hh]) (by simpa [hh] using hS)
    (by simpa [hh, Head.isBadCrc] using herr)

end

/-- The payload byte stored is one more of those pending. -/
theorem take_setIfInBounds {n i : ℕ} (v : Vector UInt8 n) (b : UInt8) (hi : i < n) :
    (v.setIfInBounds i b).toList.take (i + 1) = v.toList.take i ++ [b] := by
  have hlen : i < v.toList.length := by simpa using hi
  rw [Vector.toList_setIfInBounds, List.take_add_one]
  simp [List.take_set_of_le, hi]

section

variable {p : SlvrParser} {b : UInt8}

theorem feedByte_lenL (hs : p.state = .lenL) : slvrParserFeedByte p b =
    let p' := { p with currentFrame :=
      { p.currentFrame with length := p.currentFrame.length ||| b.toUInt16 } }
    if 512 < p.currentFrame.length ||| b.toUInt16 then
      ({ p' with state := .magic0, droppedBytes := p.droppedBytes + 1 }, none)
    else if p.currentFrame.length ||| b.toUInt16 = 0 then
      ({ p' with payloadIdx := 0, state := .crcH }, none)
    else ({ p' with payloadIdx := 0, state := .payload }, none) := by
  simp only [slvrParserFeedByte, hs]

theorem feedByte_payload (hs : p.state = .payload) : slvrParserFeedByte p b =
    let p' := { p with
      currentFrame := { p.currentFrame with
        payload := p.currentFrame.payload.setIfInBounds p.payloadIdx.toNat b }
      payloadIdx := p.payloadIdx + 1 }
    if p.currentFrame.length ≤ p.payloadIdx + 1 then ({ p' with state := .crcH }, none)
    else (p', none) := by
  simp only [slvrParserFeedByte, hs]

theorem feedByte_crcL (hs : p.state = .crcL) : slvrParserFeedByte p b =
    let c := { p.currentFrame with crc16 := p.currentFrame.crc16 ||| b.toUInt16 }
    let p' := { p with currentFrame := c, state := .magic0 }
    if c.crc16 = expectedCrc c then
      ({ p' with framesReceived := p.framesReceived + 1 }, some c)
    else ({ p' with crcErrors := p.crcErrors + 1 }, none) := by
  simp only [slvrParserFeedByte, hs]

/-- The first byte of the length, as `LEN_L` finds it. -/
theorem of_good_lenL (hs : p.state = .lenL) (hp : p.Good) : p.currentFrame.version = version1 ∧
    ∃ hi : UInt8, p.currentFrame.length = hi.toUInt16 <<< 8 ∧
      p.pending = magic ++ [p.currentFrame.version, p.currentFrame.type, p.currentFrame.flags,
        p.currentFrame.sequence, hi] := by
  obtain ⟨hv, hi, hlen⟩ : p.currentFrame.version = version1 ∧
      ∃ hi : UInt8, p.currentFrame.length = hi.toUInt16 <<< 8 := by
    simpa only [SlvrParser.Good, hs] using hp
  have hhi : (p.currentFrame.length >>> 8).toUInt8 = hi := hlen ▸ shiftRight_toUInt8 hi
  refine ⟨hv, hi, hlen, ?_⟩
  simp only [SlvrParser.pending, hs, hhi]

/-- A length that is out of range, as it is stored, is so as the scan reads it. -/
theorem head_of_long (hs : p.state = .lenL) (hp : p.Good)
    (hlong : 512 < p.currentFrame.length ||| b.toUInt16) : head (p.pending ++ [b]) = .tooLong := by
  obtain ⟨hv, hi, hlen, hpend⟩ := of_good_lenL hs hp
  have hmax : maxPayloadLen < ofBe16 hi b := by
    rw [← word_toNat hi b, ← hlen]
    exact UInt16.lt_iff_toNat_lt.1 hlong
  rw [hpend, hv]
  exact (Shape.tooLong p.currentFrame.type p.currentFrame.flags p.currentFrame.sequence []
    hmax).head_eq

/-- The second byte of the length: it is in range, or the candidate is rejected. -/
theorem refines_lenL (hs : p.state = .lenL) (hp : p.Good) : Refines p b := by
  obtain ⟨hv, hi, hlen, hpend⟩ := of_good_lenL hs hp
  have hword : (p.currentFrame.length ||| b.toUInt16).toNat = ofBe16 hi b :=
    hlen ▸ word_toNat hi b
  have hbytes := be16_toNat (p.currentFrame.length ||| b.toUInt16)
  rw [hword, be16_ofBe16] at hbytes
  have hfeed := feedByte_lenL (b := b) hs
  have hhead := head_of_long (b := b) hs hp
  -- The length as it is stored is the one that the scan reads.
  generalize p.currentFrame.length ||| b.toUInt16 = n at hword hbytes hfeed hhead
  simp only [List.cons.injEq, and_true] at hbytes
  by_cases hlong : 512 < n
  · rw [if_pos hlong] at hfeed
    have hh := hhead hlong
    exact .of_rejected hp hfeed rfl (by simp [hh]) (by simp [hh]) (by simp [hh])
      (by simp [hh, Head.isBadCrc])
  rw [if_neg hlong] at hfeed
  by_cases hzero : n = 0
  · rw [if_pos hzero] at hfeed
    refine .of_kept hfeed ⟨hv, UInt16.not_lt.1 hlong, hzero.symm⟩ ?_ rfl
    have hnil : SlvrFrame.payloadBytes { p.currentFrame with length := n } = [] := by
      simp [SlvrFrame.payloadBytes, hzero]
    rw [hpend]
    simp only [SlvrParser.pending, hnil]
    simp [SlvrFrame.headerBytes, ← hbytes]
  · rw [if_neg hzero] at hfeed
    refine .of_kept hfeed ⟨hv, UInt16.not_lt.1 hlong, UInt16.pos_iff_ne_zero.2 hzero⟩ ?_ rfl
    rw [hpend]
    simp [SlvrParser.pending, SlvrFrame.headerBytes, ← hbytes]

/-- A byte of the payload. -/
theorem refines_payload (hs : p.state = .payload) (hp : p.Good) : Refines p b := by
  obtain ⟨hv, hle, hidx⟩ : p.currentFrame.version = version1 ∧ p.currentFrame.length ≤ 512 ∧
      p.payloadIdx < p.currentFrame.length := by
    simpa only [SlvrParser.Good, hs] using hp
  have hle' : p.currentFrame.length.toNat ≤ 512 := UInt16.le_iff_toNat_le.1 hle
  have hidx' : p.payloadIdx.toNat < p.currentFrame.length.toNat := UInt16.lt_iff_toNat_lt.1 hidx
  have hnext : (p.payloadIdx + 1).toNat = p.payloadIdx.toNat + 1 := by
    rw [UInt16.toNat_add]
    simp
    omega
  have hstore := take_setIfInBounds p.currentFrame.payload b
    (Nat.lt_of_lt_of_le hidx' hle')
  have hpend : p.pending = magic ++ p.currentFrame.headerBytes ++
      p.currentFrame.payload.toList.take p.payloadIdx.toNat := by
    simp only [SlvrParser.pending, hs]
  have hfeed := feedByte_payload (b := b) hs
  -- After the last byte of the payload, the CRC comes.
  by_cases hlast : p.currentFrame.length ≤ p.payloadIdx + 1
  · rw [if_pos hlast] at hfeed
    have hlen : p.currentFrame.length.toNat = p.payloadIdx.toNat + 1 := by
      have := UInt16.le_iff_toNat_le.1 hlast
      omega
    refine .of_kept hfeed ⟨hv, hle, UInt16.toNat_inj.1 (by rw [hnext, hlen])⟩ ?_ rfl
    rw [hpend, List.append_assoc, ← hstore, ← hlen]
    rfl
  · rw [if_neg hlast] at hfeed
    refine .of_kept hfeed ?_ ?_ rfl
    · simpa only [SlvrParser.Good, hs] using ⟨hv, hle, UInt16.not_le.1 hlast⟩
    · rw [hpend, List.append_assoc, ← hstore, ← hnext]
      simp only [SlvrParser.pending, hs]
      rfl

/-- The last byte of the CRC: the frame is delivered, or the error counted. -/
theorem refines_crcL (hs : p.state = .crcL) (hp : p.Good) : Refines p b := by
  obtain ⟨hv, hle, _, hi, hcrc⟩ : p.currentFrame.version = version1 ∧
      p.currentFrame.length ≤ 512 ∧ p.payloadIdx = p.currentFrame.length ∧
        ∃ hi : UInt8, p.currentFrame.crc16 = hi.toUInt16 <<< 8 := by
    simpa only [SlvrParser.Good, hs] using hp
  have hhi : (p.currentFrame.crc16 >>> 8).toUInt8 = hi := hcrc ▸ shiftRight_toUInt8 hi
  have hword : (p.currentFrame.crc16 ||| b.toUInt16).toNat = ofBe16 hi b := hcrc ▸ word_toNat hi b
  have hhead : head (p.pending ++ [b]) = checkCrc (p.currentFrame.toFrame hle) [hi, b] := by
    rw [← head_crc hv hle hi b]
    simp only [SlvrParser.pending, hs, hhi]
  have hfeed := feedByte_crcL (b := b) hs
  generalize hn : p.currentFrame.crc16 ||| b.toUInt16 = n at hword hfeed
  have hexp := SlvrFrame.expectedCrc_eq (c := { p.currentFrame with crc16 := n }) hle hv
  have hcheck : [hi, b] = be16 (p.currentFrame.toFrame hle).crc.toNat ↔
      n = expectedCrc { p.currentFrame with crc16 := n } := by
    rw [hexp, ← be16_ofBe16 hi b, ← hword, be16_inj n.toNat_lt (UInt16.toNat_lt _)]
    exact UInt16.toNat_inj
  rw [checkCrc] at hhead
  -- The two bytes are those of the CRC if and only if the numbers agree.
  by_cases hok : n = expectedCrc { p.currentFrame with crc16 := n }
  · rw [if_pos (hcheck.2 hok)] at hhead
    have hon := online_frame (head_pending hp) hhead
    have hrec := SlvrFrame.received_eq (c := { p.currentFrame with crc16 := n }) hle hv
      (hok.trans hexp)
    rw [if_pos hok] at hfeed
    refine ⟨?_, ?_, ?_, ?_⟩ <;> rw [hfeed]
    · trivial
    · rw [hon]
      rfl
    · rw [hon]
      exact congrArg some hrec
    · rw [hhead]
      rfl
  · rw [if_neg (mt hcheck.1 hok)] at hhead
    rw [if_neg hok] at hfeed
    exact .of_rejected hp hfeed rfl (by simp [hhead]) (by simp [hhead]) (by simp [hhead])
      (by simp [hhead, Head.isBadCrc])

end

/-- A byte read is a byte scanned. -/
theorem feedByte_refines {p : SlvrParser} (hp : p.Good) (b : UInt8) : Refines p b := by
  obtain ⟨state, c, idx, dropped, received, errors⟩ := p
  cases state with
  | magic0 =>
    by_cases hb : b = 0x53
    · subst hb
      exact .of_kept rfl trivial rfl rfl
    · exact .of_mismatch hp (if_neg hb) rfl rfl
        (k := 0) (by simp [SlvrParser.pending, mismatch, preamble, magic, hb]) (by simp)
  | magic1 =>
    by_cases hb : b = 0x4C
    · subst hb
      exact .of_kept rfl trivial rfl rfl
    by_cases hb' : b = 0x53
    · -- The one rejection after which a byte is kept.
      subst hb'
      exact ⟨trivial, rfl, rfl, rfl⟩
    · exact .of_mismatch hp ((if_neg hb).trans (if_neg hb')) rfl rfl
        (k := 1) (by simp [SlvrParser.pending, mismatch, preamble, magic, hb]) (by simp [hb'])
  | magic2 =>
    by_cases hb : b = 0x56
    · subst hb
      exact .of_kept rfl trivial rfl rfl
    · exact .of_mismatch hp (if_neg hb) rfl rfl
        (k := 2) (by simp [SlvrParser.pending, mismatch, preamble, magic, hb]) (by simp)
  | magic3 =>
    by_cases hb : b = 0x52
    · subst hb
      exact .of_kept rfl trivial rfl rfl
    · exact .of_mismatch hp (if_neg hb) rfl rfl
        (k := 3) (by simp [SlvrParser.pending, mismatch, preamble, magic, hb]) (by simp)
  | version =>
    by_cases hb : b = version1
    · subst hb
      exact .of_kept rfl rfl rfl rfl
    · exact .of_mismatch hp (if_neg hb) rfl rfl
        (k := 4) (by simp [SlvrParser.pending, mismatch, preamble, magic, hb]) (by simp)
  | type | flags | seq => exact .of_kept rfl hp rfl rfl
  | lenH =>
    refine .of_kept rfl ⟨hp, b, rfl⟩ ?_ rfl
    simp [SlvrParser.pending, shiftRight_toUInt8]
  | lenL => exact refines_lenL rfl hp
  | payload => exact refines_payload rfl hp
  | crcH =>
    obtain ⟨hv, hle, hidx⟩ := hp
    refine .of_kept rfl ⟨hv, hle, hidx, b, rfl⟩ ?_ rfl
    simp [SlvrParser.pending, shiftRight_toUInt8, SlvrFrame.headerBytes, SlvrFrame.payloadBytes]
  | crcL => exact refines_crcL rfl hp

/-- A run of the parser is a wholesale scan of its pending bytes, byte by byte. -/
theorem simulates {p : SlvrParser} (hp : p.Good) (s : List UInt8) :
    (Transducer.state slvrParserFeedByte p s).pending =
        Transducer.state (online wholesaleVerdict) p.pending s ∧
      (Transducer.outputs slvrParserFeedByte p s).map SlvrFrame.received =
        (Transducer.outputs (online wholesaleVerdict) p.pending s).map Frame.received := by
  have hsim := Transducer.outputs_map_eq_of_simulation (m := slvrParserFeedByte)
    (w := online wholesaleVerdict) (R := fun p q => p.Good ∧ p.pending = q)
    (f := SlvrFrame.received) (g := Frame.received)
    (fun p q b ⟨hp, hpq⟩ => by
      subst hpq
      have href := feedByte_refines hp b
      exact ⟨⟨href.good, href.pending⟩, href.received⟩)
    ⟨hp, rfl⟩ s
  exact ⟨hsim.1.2, hsim.2⟩

/-- The frames delivered are those found when rejected candidates are passed whole. -/
theorem outputs_eq_wholesale (s : List UInt8) :
    (Transducer.outputs slvrParserFeedByte slvrParserInit s).map SlvrFrame.received =
      (wholesale s).map Frame.received := by
  have hscan := incremental_wholesaleVerdict.online_eq_scan prompt_wholesaleVerdict
    (wholesaleVerdict_eq_wait_iff.2 head_nil) s
  rw [(simulates good_init s).2, wholesale, ← List.nil_append s, ← hscan]
  rfl

section

variable {p : SlvrParser} {t : List UInt8}

/-- Bytes that tell nothing yet are kept pending. -/
theorem read_incomplete (hp : p.Good) (ht : head (p.pending ++ t) = .incomplete) :
    (Transducer.state slvrParserFeedByte p t).Good ∧
      (Transducer.state slvrParserFeedByte p t).pending = p.pending ++ t ∧
      (Transducer.state slvrParserFeedByte p t).crcErrors = p.crcErrors ∧
      ∀ n, Transducer.emits slvrParserFeedByte p n t = [] := by
  induction t generalizing p with
  | nil => exact ⟨hp, (List.append_nil _).symm, rfl, fun _ => rfl⟩
  | cons b t ih =>
    have href := feedByte_refines hp b
    have hsplit : p.pending ++ [b] ++ t = p.pending ++ b :: t := by simp
    have hi : head (p.pending ++ [b]) = .incomplete := by
      by_contra hne
      rw [← hsplit, head_append hne] at ht
      exact hne ht
    have hpend := href.pending
    have hrec := href.received
    have herr := href.crcErrors
    rw [online_incomplete hi] at hpend hrec
    rw [hi] at herr
    have hnone : (slvrParserFeedByte p b).2 = none := by simpa using hrec
    obtain ⟨hg, hp', he, hem⟩ := ih href.good (by rw [hpend, hsplit, ht])
    refine ⟨hg, ?_, he.trans herr, fun n => ?_⟩
    · rw [Transducer.state_cons, hp', hpend, hsplit]
    · rw [Transducer.emits, hnone, hem]
      rfl

/-- Bytes that tell the candidate, and no more, are kept pending up to the last one. -/
theorem read_told (hp : p.Good) (hne : t ≠ [])
    (hlen : (p.pending ++ t).length ≤ candidateLength (head (p.pending ++ t))) :
    ∃ q b, q.Good ∧ q.crcErrors = p.crcErrors ∧ q.pending ++ [b] = p.pending ++ t ∧
      Transducer.state slvrParserFeedByte p t = (slvrParserFeedByte q b).1 ∧
      ∀ n, Transducer.emits slvrParserFeedByte p n t =
        (slvrParserFeedByte q b).2.toList.map (n + t.length, ·) := by
  obtain ⟨t, b, rfl⟩ := (List.eq_nil_or_concat' t).resolve_left hne
  rw [← List.append_assoc] at hlen
  have hlast : (p.pending ++ t ++ [b]).length = (p.pending ++ t).length + 1 := List.length_append
  have hi : head (p.pending ++ t) = .incomplete := head_of_lt (t := [b]) (by omega)
  obtain ⟨hg, hpend, herr, hem⟩ := read_incomplete hp hi
  refine ⟨_, b, hg, herr, by rw [hpend, List.append_assoc], ?_, fun n => ?_⟩
  · rw [Transducer.state_append]
    rfl
  · rw [Transducer.emits_append, hem, List.nil_append, Transducer.emits, Transducer.emits,
      List.append_nil, List.length_append, List.length_singleton, Nat.add_assoc]

end

/-- The rest of a frame, read after its first bytes: it is delivered at its last
    byte and nothing is delivered before, no CRC error is counted, and nothing
    is left pending. -/
theorem read_rest {f : Frame} {p : SlvrParser} (hp : p.Good) {t : List UInt8}
    (ht : p.pending ++ t = f.bytes) (hne : t ≠ []) :
    (Transducer.state slvrParserFeedByte p t).Good ∧
      (Transducer.state slvrParserFeedByte p t).pending = [] ∧
      (Transducer.state slvrParserFeedByte p t).crcErrors = p.crcErrors ∧
      ∃ c, c.received = f.received ∧
        ∀ n, Transducer.emits slvrParserFeedByte p n t = [(n + t.length, c)] := by
  obtain ⟨q, b, hq, herr, hbytes, hstate, hem⟩ :=
    read_told hp hne (by rw [ht, head_bytes]; exact Nat.le_refl _)
  have href := feedByte_refines hq b
  have hh : head (q.pending ++ [b]) = .frame f := by rw [hbytes, ht, head_bytes]
  have hrec := href.received
  have hpend := href.pending
  have herr' := href.crcErrors
  rw [online_frame (head_pending hq) hh] at hrec hpend
  rw [hh] at herr'
  obtain ⟨c, hc, heq⟩ := Option.map_eq_some_iff.1 hrec
  rw [hstate]
  exact ⟨href.good, hpend, herr'.trans herr, c, heq, fun n => by rw [hem, hc]; rfl⟩

/-- The rest of a candidate failing its CRC: nothing is delivered, the error is
    counted, and nothing is left pending. -/
theorem read_badCrc {p : SlvrParser} (hp : p.Good) {t : List UInt8} (hne : t ≠ []) {len : ℕ}
    (ht : head (p.pending ++ t) = .badCrc len)
    (hlen : (p.pending ++ t).length = frameOverhead + len) :
    (Transducer.state slvrParserFeedByte p t).pending = [] ∧
      (Transducer.state slvrParserFeedByte p t).crcErrors = p.crcErrors + 1 ∧
      Transducer.outputs slvrParserFeedByte p t = [] := by
  obtain ⟨q, b, hq, herr, hbytes, hstate, hem⟩ :=
    read_told hp hne (by rw [ht, hlen]; exact Nat.le_refl _)
  have href := feedByte_refines hq b
  have hh : head (q.pending ++ [b]) = .badCrc len := by rw [hbytes, ht]
  have hrec := href.received
  have hpend := href.pending
  have herr' := href.crcErrors
  rw [online_rejected (head_pending hq) (by simp [hh]) (by simp [hh]), hh] at hrec hpend
  rw [hh] at herr'
  have hnone : (slvrParserFeedByte q b).2 = none := by simpa using hrec
  rw [hstate, ← Transducer.emits_map_snd _ p 0, hem, hnone]
  exact ⟨by simpa using hpend, by rw [herr', herr]; rfl, rfl⟩

/-! ## Deliveries -/

/-- The bytes the encoder writes for a frame, in a buffer large enough. -/
def SlvrFrame.code (c : SlvrFrame) : List UInt8 :=
  (slvrEncodeFrame c (frameOverhead + c.length.toNat)).toOption.getD []

/-- A frame delivered at a byte is encoded as the pending bytes and this one. -/
theorem of_feedByte_eq_some {p : SlvrParser} (hp : p.Good) {b : UInt8} {c : SlvrFrame}
    (h : (slvrParserFeedByte p b).2 = some c) : c.version = version1 ∧
      ∃ hle : c.length ≤ 512, (c.toFrame hle).bytes = p.pending ++ [b] := by
  have hrec := (feedByte_refines hp b).received
  rw [h] at hrec
  obtain ⟨f, hf, heq⟩ := Option.map_eq_some_iff.1 hrec.symm
  have hfin : head (p.pending ++ [b]) ≠ .incomplete := fun hi => by
    simp [online_incomplete hi] at hf
  have hframe : head (p.pending ++ [b]) = .frame f := by
    by_cases hf' : ∃ g, head (p.pending ++ [b]) = .frame g
    · obtain ⟨g, hg⟩ := hf'
      rw [online_frame (head_pending hp) hg] at hf
      rw [hg, Option.some.inj hf]
    · rw [online_rejected (head_pending hp) (fun g hg => hf' ⟨g, hg⟩) hfin] at hf
      cases hf
  obtain ⟨hv, hle, htoFrame⟩ := SlvrFrame.of_received_eq heq.symm
  refine ⟨hv, hle, ?_⟩
  have hlen := candidateLength_concat (head_pending hp) hfin
  rw [hframe, candidateLength] at hlen
  rw [htoFrame]
  exact (head_eq_frame_iff.1 hframe).eq_of_length (by simp [hlen])

/-- The parser tracks the bytes of what it delivers. -/
theorem tracks_feedByte :
    Transducer.Tracks slvrParserFeedByte SlvrParser.Good SlvrParser.pending SlvrFrame.code where
  good hp := (feedByte_refines hp _).good
  emit {p b c} hp h := by
    obtain ⟨hv, hle, hbytes⟩ := of_feedByte_eq_some hp h
    refine ⟨?_, ?_⟩
    · rw [SlvrFrame.code, SlvrFrame.slvrEncodeFrame_eq hle hv (Nat.le_refl _), ← hbytes]
      rfl
    · have hframe : head (p.pending ++ [b]) = .frame (c.toFrame hle) :=
        hbytes ▸ head_bytes _
      rw [(feedByte_refines hp b).pending, online_frame (head_pending hp) hframe]
  quiet {p b} hp _ := by
    rw [(feedByte_refines hp b).pending]
    by_cases hi : head (p.pending ++ [b]) = .incomplete
    · rw [online_incomplete hi]
    by_cases hf : ∃ f, head (p.pending ++ [b]) = .frame f
    · obtain ⟨f, hf⟩ := hf
      rw [online_frame (head_pending hp) hf]
      exact List.nil_suffix
    · rw [online_rejected (head_pending hp) (fun f h => hf ⟨f, h⟩) hi]
      split
      · exact List.suffix_append _ _
      · exact List.nil_suffix

/-- What is delivered is well formed. -/
theorem of_mem_emits {p : SlvrParser} (hp : p.Good) {s : List UInt8} {n k : ℕ} {c : SlvrFrame}
    (h : (k, c) ∈ Transducer.emits slvrParserFeedByte p n s) :
    c.version = version1 ∧ c.length ≤ 512 := by
  induction s generalizing p n with
  | nil => simp [Transducer.emits] at h
  | cons b s ih =>
    simp only [Transducer.emits, List.mem_append, List.mem_map, Option.mem_toList] at h
    rcases h with ⟨c', hc', heq⟩ | h
    · obtain ⟨rfl, rfl⟩ := Prod.mk.inj heq
      obtain ⟨hv, hle, _⟩ := of_feedByte_eq_some hp hc'
      exact ⟨hv, hle⟩
    · exact ih (feedByte_refines hp b).good h

theorem code_eq {c : SlvrFrame} {f : Frame} (h : c.received = f.received) : c.code = f.bytes := by
  obtain ⟨hv, hle, rfl⟩ := SlvrFrame.of_received_eq h
  rw [SlvrFrame.code, SlvrFrame.slvrEncodeFrame_eq hle hv (Nat.le_refl _)]
  rfl

theorem length_code {c : SlvrFrame} (hv : c.version = version1) (hle : c.length ≤ 512) :
    c.code.length = frameOverhead + c.length.toNat := by
  rw [SlvrFrame.code, SlvrFrame.slvrEncodeFrame_eq hle hv (Nat.le_refl _), Except.toOption,
    Option.getD_some, Frame.length_bytes, SlvrFrame.toFrame, SlvrFrame.length_payloadBytes hle]

/-- Deliveries are sound: a frame delivered is well formed and encodes to the
    last `12 + length` bytes fed, and the bytes of two frames delivered do not
    overlap. -/
theorem deliveries_sound (s : List UInt8) :
    (∀ k c, (k, c) ∈ Transducer.emits slvrParserFeedByte slvrParserInit 0 s →
      c.version = version1 ∧ c.length ≤ 512 ∧
        ∀ n, frameOverhead + c.length.toNat ≤ n → ∃ bytes, slvrEncodeFrame c n = .ok bytes ∧
          bytes.length = frameOverhead + c.length.toNat ∧ bytes <:+ s.take k) ∧
      (Transducer.emits slvrParserFeedByte slvrParserInit 0 s).Pairwise fun d e =>
        d.1 + (frameOverhead + e.2.length.toNat) ≤ e.1 := by
  refine ⟨fun k c h => ?_, ?_⟩
  · obtain ⟨hv, hle⟩ := of_mem_emits good_init h
    refine ⟨hv, hle, fun n hn => ⟨c.code, ?_, length_code hv hle, ?_⟩⟩
    · rw [SlvrFrame.code, SlvrFrame.slvrEncodeFrame_eq hle hv hn,
        SlvrFrame.slvrEncodeFrame_eq hle hv (Nat.le_refl _)]
      rfl
    · exact tracks_feedByte.code_suffix good_init h
  · refine (tracks_feedByte.pairwise_disjoint good_init 0 s).imp_of_mem ?_
    intro d e _ he hde
    obtain ⟨hv, hle⟩ := of_mem_emits good_init he
    rwa [length_code hv hle] at hde

/-! ## The payload buffer -/

/-- What a parser that has read `s` has stored of the payload of its current frame. -/
structure PayloadStored (s : List UInt8) (p : SlvrParser) : Prop where
  /-- A byte of the payload is stored inside the buffer, after those stored before it. -/
  payload : p.state = .payload → p.payloadIdx < p.currentFrame.length ∧
    p.currentFrame.length ≤ 512 ∧
      magic ++ p.currentFrame.headerBytes ++
        p.currentFrame.payload.toList.take p.payloadIdx.toNat <:+ s
  /-- At the first byte of the CRC, the payload has been read, and stored, to its length. -/
  crcH : p.state = .crcH → p.currentFrame.length ≤ 512 ∧
    p.payloadIdx = p.currentFrame.length ∧
      p.currentFrame.payloadBytes.length = p.currentFrame.length.toNat ∧
        magic ++ p.currentFrame.headerBytes ++ p.currentFrame.payloadBytes <:+ s
  /-- At the second one, it is still so. -/
  crcL : p.state = .crcL → p.currentFrame.length ≤ 512 ∧
    p.payloadIdx = p.currentFrame.length ∧
      p.currentFrame.payloadBytes.length = p.currentFrame.length.toNat ∧
        ∃ hi, magic ++ p.currentFrame.headerBytes ++ p.currentFrame.payloadBytes ++ [hi] <:+ s

/-- The pending bytes being the last ones read, the fields say what is stored of these. -/
theorem SlvrParser.Good.payloadStored {p : SlvrParser} (hp : p.Good) {s : List UInt8}
    (hs : p.pending <:+ s) : PayloadStored s p := by
  obtain ⟨state, c, idx, dropped, received, errors⟩ := p
  constructor
  · intro h
    subst h
    obtain ⟨_, hle, hidx⟩ := hp
    exact ⟨hidx, hle, hs⟩
  · intro h
    subst h
    obtain ⟨_, hle, hidx⟩ := hp
    exact ⟨hle, hidx, SlvrFrame.length_payloadBytes hle, hs⟩
  · intro h
    subst h
    obtain ⟨_, hle, hidx, _⟩ := hp
    exact ⟨hle, hidx, SlvrFrame.length_payloadBytes hle, _, hs⟩

/-- The payload buffer is safe: after any stream, the next byte of a payload is stored
    below the length of the frame, which is at most that of the buffer, and the CRC is
    read once the bytes of the payload, as many as the length says, are stored. -/
theorem payload_within_buffer (s : List UInt8) :
    PayloadStored s (Transducer.state slvrParserFeedByte slvrParserInit s) :=
  (tracks_feedByte.good_state good_init s).payloadStored (tracks_feedByte.pending_state good_init s)

end SliverOS.Firmware
