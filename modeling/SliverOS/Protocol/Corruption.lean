import SliverOS.Bytes.Burst
import SliverOS.Protocol.Firmware

/-!
# Corrupted frames

A burst of at most 16 bits, in a frame on the wire, is detected by the CRC of the frame:
the encodings of two frames do not differ so (`not_burst_bytes`). A burst that leaves the
preamble and the length as they are thus makes a candidate of the same length, failing
its CRC (`head_of_burst`), which the parser counts as an error and passes
(`burst_detected`).
-/

namespace SliverOS

open Streams Wire Crc

/-! ## The CRC, bit by bit -/

namespace Firmware

/-- The polynomial of the CRC. -/
def poly : BitVec 16 := 0x1021#16

theorem toBitVec_crcBit (crc : UInt16) : (crcBit crc).toBitVec = shift poly crc.toBitVec := by
  have hbit : crc &&& 0x8000 ≠ 0 ↔ crc.toBitVec.msb = true := by
    have hand : (crc &&& 0x8000).toBitVec = crc.toBitVec &&& BitVec.twoPow 16 15 := rfl
    rw [Ne, ← UInt16.toBitVec_inj, hand, BitVec.and_twoPow, BitVec.msb_eq_getLsbD_last]
    cases crc.toBitVec.getLsbD (16 - 1) <;> decide
  rw [crcBit, shift]
  by_cases h : crc &&& 0x8000 ≠ 0
  · rw [if_pos h, if_pos (hbit.1 h)]
    rfl
  · rw [if_neg h, if_neg (mt hbit.2 h)]
    rfl

/-- A byte is added to the CRC bit by bit. -/
theorem toBitVec_crcByte (crc : UInt16) (b : UInt8) :
    (crcByte crc b).toBitVec = (byteBits b).foldl (step poly) crc.toBitVec := by
  have hsemiconj : Function.Semiconj UInt16.toBitVec crcBit (shift poly) := toBitVec_crcBit
  have hword : (b.toUInt16 <<< 8).toBitVec = word (byteBits b) := by
    refine BitVec.eq_of_getMsbD_eq fun i hi => ?_
    rw [getMsbD_word hi]
    change (b.toBitVec.setWidth 16 <<< 8).getMsbD i = _
    rw [BitVec.getMsbD_shiftLeft, BitVec.getMsbD_setWidth]
    by_cases h8 : i < 8
    · simp [byteBits, h8]
    · rw [BitVec.getMsbD_of_ge _ _ (by omega)]
      simp [byteBits, h8]
  rw [foldl_step (by simp), length_byteBits, ← hword, crcByte]
  exact hsemiconj.iterate_right 8 _

theorem toBitVec_foldl_crcByte (data : List UInt8) (crc : UInt16) :
    (data.foldl crcByte crc).toBitVec = (bits data).foldl (step poly) crc.toBitVec := by
  induction data generalizing crc with
  | nil => rfl
  | cons b data ih =>
    rw [List.foldl_cons, ih, toBitVec_crcByte, bits_cons, List.foldl_append]

/-- The bytes of a number, as bits, are its bits. -/
theorem word_be16 (n : UInt16) : word (bits (be16 n.toNat)) = n.toBitVec := by
  have hhi : (n >>> 8).toUInt8.toBitVec = (n.toBitVec >>> 8).setWidth 8 := rfl
  have hlo : (n &&& 0xFF).toUInt8.toBitVec = n.toBitVec.setWidth 8 := by
    have hand : (n &&& 0xFF).toUInt8.toBitVec = (n.toBitVec &&& 0xFF#16).setWidth 8 := rfl
    rw [hand, BitVec.setWidth_and]
    exact BitVec.and_allOnes
  refine BitVec.eq_of_getMsbD_eq fun i hi => ?_
  rw [getMsbD_word hi, be16_toNat, List.getD_eq_getElem?_getD]
  by_cases h8 : i < 8
  · have hbit := getElem?_bits [(n >>> 8).toUInt8, (n &&& 0xFF).toUInt8] 0 h8
    rw [Nat.mul_zero, Nat.zero_add] at hbit
    rw [hbit, List.getElem?_cons_zero, Option.map_some, Option.getD_some, hhi,
      BitVec.getMsbD_setWidth, BitVec.getMsbD_ushiftRight]
    simp
    omega
  · obtain ⟨r, rfl⟩ := Nat.exists_eq_add_of_le (Nat.not_lt.1 h8)
    have hbit := getElem?_bits [(n >>> 8).toUInt8, (n &&& 0xFF).toUInt8] 1 (r := r) (by omega)
    rw [Nat.mul_one] at hbit
    rw [hbit, List.getElem?_cons_succ, List.getElem?_cons_zero, Option.map_some, Option.getD_some,
      hlo, BitVec.getMsbD_setWidth, Nat.add_comm 8 r]
    rfl

/-- Data followed by its CRC leave the CRC clear. -/
theorem foldl_crcByte_be16 (crc : UInt16) : (be16 crc.toNat).foldl crcByte crc = 0 := by
  rw [← UInt16.toBitVec_inj, toBitVec_foldl_crcByte, foldl_step (by simp [be16]), word_be16,
    BitVec.xor_self, Function.iterate_fixed shift_zero]
  rfl

end Firmware

/-! ## Bursts -/

namespace Wire

/-- The encodings of two frames do not differ in a burst. -/
theorem not_burst_bytes (f g : Frame) (k : ℕ) : ¬Burst 16 k (bits f.bytes) (bits g.bytes) := by
  intro h
  -- After the magic, both leave the CRC clear.
  have hclear (f : Frame) : ((bits (f.body ++ be16 f.crc.toNat)).foldl (step Firmware.poly)
      (0xFFFF : UInt16).toBitVec) = 0#16 := by
    have hcrc : f.body.foldl Firmware.crcByte 0xFFFF = f.crc := rfl
    rw [← Firmware.toBitVec_foldl_crcByte, List.foldl_append, hcrc, Firmware.foldl_crcByte_be16]
    rfl
  rw [Frame.bytes, Frame.bytes, List.append_assoc, List.append_assoc, bits_append magic,
    bits_append magic] at h
  exact foldl_step_ne (by decide) (Nat.le_refl _) h.of_append _ ((hclear g).trans (hclear f).symm)

/-- A burst that leaves the preamble and the length as they are makes a candidate of the same
    length, failing its CRC. -/
theorem head_of_burst {f : Frame} {received : List UInt8} {k : ℕ}
    (h : Burst 16 k (bits f.bytes) (bits received))
    (hsame : ∀ j, j < 5 ∨ j = 8 ∨ j = 9 → received[j]? = f.bytes[j]?) :
    head received = .badCrc f.payload.length ∧
      received.length = frameOverhead + f.payload.length := by
  have hlen : received.length = frameOverhead + f.payload.length := by
    have := h.length_eq
    rw [length_bits, length_bits, f.length_bytes] at this
    omega
  refine ⟨?_, hlen⟩
  obtain ⟨b₀, b₁, b₂, b₃, b₄, type, flags, sequence, hi, lo, rest, rfl⟩ :=
    exists_header (s := received) (by rw [hlen, frameOverhead]; omega)
  obtain rfl : b₀ = 0x53 := Option.some.inj (hsame 0 (by decide))
  obtain rfl : b₁ = 0x4C := Option.some.inj (hsame 1 (by decide))
  obtain rfl : b₂ = 0x56 := Option.some.inj (hsame 2 (by decide))
  obtain rfl : b₃ = 0x52 := Option.some.inj (hsame 3 (by decide))
  obtain rfl : b₄ = version1 := Option.some.inj (hsame 4 (by decide))
  have hhi : hi = UInt8.ofNat (f.payload.length / 256) := Option.some.inj (hsame 8 (by decide))
  have hlo : lo = UInt8.ofNat f.payload.length := Option.some.inj (hsame 9 (by decide))
  have hword : ofBe16 hi lo = f.payload.length := by rw [hhi, hlo, ofBe16_be16 f.payload_lt]
  have hrest : rest.length = f.payload.length + 2 := by
    simp only [List.length_cons, frameOverhead] at hlen
    omega
  -- The candidate is read as a frame, with another CRC than its own.
  have hpayload : (rest.take f.payload.length).length = f.payload.length := by simp; omega
  let g : Frame := ⟨type, flags, sequence, rest.take f.payload.length, by
    rw [hpayload]; exact f.payload_le⟩
  have hbytes : magic ++ g.body ++ rest.drop f.payload.length = 0x53 :: 0x4C :: 0x56 :: 0x52 ::
      version1 :: type :: flags :: sequence :: hi :: lo :: rest := by
    have hbe : be16 (rest.take f.payload.length).length = [hi, lo] := by
      rw [hpayload, ← hword, be16_ofBe16]
    simp only [g, Frame.body, hbe, List.append_assoc, List.take_append_drop]
    rfl
  have hcrc : (rest.drop f.payload.length).length = 2 := by simp [hrest]
  have hhead := head_body g hcrc []
  rw [List.append_nil, hbytes, checkCrc] at hhead
  split at hhead
  · next heq =>
    rw [← hbytes, heq] at h
    exact absurd h (not_burst_bytes f g k)
  · rw [hhead]
    exact congrArg Head.badCrc hpayload

end Wire

namespace Firmware

/-- A burst of at most 16 bits is detected: the bytes of a frame that it corrupts, in the
    type, flags and sequence bytes or in the payload and the CRC, are not delivered, and are
    counted as one CRC error. -/
theorem burst_detected {c : SlvrFrame} (hv : c.version = version1) {n : ℕ}
    {sent received : List UInt8} (hsent : slvrEncodeFrame c n = .ok sent) {k : ℕ}
    (h : Burst 16 k (bits sent) (bits received))
    (hk : 8 * 5 ≤ k ∧ k + 16 ≤ 8 * 8 ∨ 8 * 10 ≤ k ∧ k + 16 ≤ 8 * sent.length)
    {p : SlvrParser} (hp : p.state = .magic0) :
    Transducer.outputs slvrParserFeedByte p received = [] ∧
      (Transducer.state slvrParserFeedByte p received).crcErrors = p.crcErrors + 1 ∧
      (Transducer.state slvrParserFeedByte p received).state = .magic0 := by
  have hgood : p.Good := by simp [SlvrParser.Good, hp]
  have hnone : p.pending = [] := by simp [SlvrParser.pending, hp]
  obtain ⟨hle, hn⟩ : c.length ≤ 512 ∧ frameOverhead + c.length.toNat ≤ n := by
    rw [slvrEncodeFrame] at hsent
    split_ifs at hsent with hlong hroom
    exact ⟨UInt16.not_lt.1 hlong, Nat.not_lt.1 hroom⟩
  obtain rfl := Except.ok.inj (hsent.symm.trans (SlvrFrame.slvrEncodeFrame_eq hle hv hn))
  obtain ⟨hhead, hlen⟩ := head_of_burst h fun j hj => h.getElem?_eq (by omega)
  have hne : received ≠ [] := by
    rintro rfl
    simp [frameOverhead] at hlen
    omega
  obtain ⟨hpend, herr, hout⟩ := read_badCrc hgood hne (by rw [hnone]; exact hhead)
    (by rw [hnone]; exact hlen)
  exact ⟨hout, herr, SlvrParser.state_eq_of_pending hpend⟩

/-- The frame of a `SLVR_CMD_PING`, with all of the bits of its CRC flipped. -/
theorem burst_detected_ping : Transducer.outputs slvrParserFeedByte slvrParserInit
    (pingFrame.bytes.take 10 ++ (pingFrame.bytes.drop 10).map (~~~ ·)) = [] :=
  (burst_detected (c := ⟨1, 0x8D, 0, 7, 0, Vector.replicate 512 0, 0⟩) rfl
    (show slvrEncodeFrame _ 524 = .ok pingFrame.bytes by decide +kernel)
    (show Burst 16 80 _ _ by decide +kernel) (.inr (by decide +kernel)) (p := slvrParserInit)
    rfl).1

end Firmware

end SliverOS
