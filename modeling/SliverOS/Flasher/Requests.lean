import SliverOS.Flasher.EspProtocol

/-!
# Requests

What a bootloader finds in the packets of `formatCommandPacket`: the fields of the header, the
low bytes first, and the payload. The delimiter is around a packet and nowhere in it.
-/

namespace SliverOS.Flasher

open Bytes Streams

/-- A request, with its header. -/
structure Request where
  direction : UInt8
  opcode : UInt8
  size : ℕ
  checksum : ℕ
  payload : List UInt8
  deriving DecidableEq, Repr

/-- The request that some bytes are, once decoded. -/
def Request.ofDecoded (decoded : List UInt8) : Request where
  direction := decoded.getD 0 0
  opcode := decoded.getD 1 0
  size := ofLE ((decoded.drop 2).take 2)
  checksum := ofLE ((decoded.drop 4).take 4)
  payload := decoded.drop 8

/-- The request in a packet. -/
def Request.ofPacket (packet : List UInt8) : Request := .ofDecoded (slipDecode packet)

/-- The delimiters of a packet are its ends. -/
theorem getElem?_slipEncode_eq_slipEnd_iff (data : List UInt8) (i : ℕ) :
    (slipEncode data)[i]? = some slipEnd ↔ i = 0 ∨ i + 1 = (slipEncode data).length := by
  have hlen : (slipEncode data).length = (slipBody data).length + 2 := by simp [slipEncode]
  rw [hlen]
  cases i with
  | zero => exact iff_of_true rfl (.inl rfl)
  | succ j =>
    rw [slipEncode, List.append_assoc, List.singleton_append, List.getElem?_cons_succ]
    rcases lt_trichotomy j (slipBody data).length with hj | rfl | hj
    · rw [List.getElem?_append_left hj]
      refine iff_of_false (fun hend => slipEnd_notMem data (List.mem_of_getElem? hend)) ?_
      omega
    · rw [List.getElem?_append_right le_rfl, Nat.sub_self]
      exact iff_of_true rfl (.inr rfl)
    · rw [List.getElem?_append_right hj.le, List.getElem?_eq_none (by simp; omega)]
      refine iff_of_false ?_ (by omega)
      intro hend
      cases hend

/-- A request is in the packet as it was formatted, up to the ranges of its header. -/
theorem ofPacket_formatCommandPacket (opcode : UInt8) (payload : List UInt8) (checksum : ℕ) :
    Request.ofPacket (formatCommandPacket opcode payload checksum) =
      ⟨0, opcode, payload.length % 256 ^ 2, checksum % 256 ^ 4, payload⟩ := by
  have hpacket : [0, opcode] ++ toLE 2 payload.length ++ toLE 4 checksum ++ payload =
      0 :: opcode :: (toLE 2 payload.length ++ (toLE 4 checksum ++ payload)) := by
    simp only [List.append_assoc, List.cons_append, List.nil_append]
  have hsize : (toLE 2 payload.length ++ (toLE 4 checksum ++ payload)).take 2 =
      toLE 2 payload.length := List.take_left' (length_toLE 2 _)
  have hrest : (toLE 2 payload.length ++ (toLE 4 checksum ++ payload)).drop 2 =
      toLE 4 checksum ++ payload := List.drop_left' (length_toLE 2 _)
  have hchecksum : (toLE 4 checksum ++ payload).take 4 = toLE 4 checksum :=
    List.take_left' (length_toLE 4 _)
  have hpayload : (toLE 2 payload.length ++ (toLE 4 checksum ++ payload)).drop (2 + 4) =
      payload := by
    rw [← List.drop_drop, hrest, List.drop_left' (length_toLE 4 _)]
  have hdrop (n : ℕ) (xs : List UInt8) :
      (0 :: opcode :: xs).drop (n + 2) = xs.drop n := rfl
  rw [Request.ofPacket, formatCommandPacket, slipDecode_slipEncode, hpacket, Request.ofDecoded,
    hdrop 0, hdrop 2, hdrop 6, List.drop_zero, hsize, hrest, hchecksum, hpayload, ofLE_toLE,
    ofLE_toLE]
  rfl

/-- Packets are decoded to what they were, and requests are found in them as they were formatted. -/
theorem packets_roundTrip (data : List UInt8) (opcode : UInt8) (payload : List UInt8)
    (hlen : payload.length < 65536) (checksum : UInt32) :
    slipDecode (slipEncode data) = data ∧
      (∀ i, (slipEncode data)[i]? = some slipEnd ↔ i = 0 ∨ i + 1 = (slipEncode data).length) ∧
      Request.ofPacket (formatCommandPacket opcode payload checksum.toNat) =
        ⟨0, opcode, payload.length, checksum.toNat, payload⟩ := by
  refine ⟨slipDecode_slipEncode data, getElem?_slipEncode_eq_slipEnd_iff data, ?_⟩
  have hsize : payload.length % 256 ^ 2 = payload.length := Nat.mod_eq_of_lt hlen
  have hchecksum : checksum.toNat % 256 ^ 4 = checksum.toNat := Nat.mod_eq_of_lt checksum.toNat_lt
  rw [ofPacket_formatCommandPacket, hsize, hchecksum]

/-- The packet of a symbol that is escaped. -/
theorem packets_roundTrip_esc :
    slipDecode (slipEncode [slipEsc]) = [slipEsc] ∧
      (∀ i, (slipEncode [slipEsc])[i]? = some slipEnd ↔
        i = 0 ∨ i + 1 = (slipEncode [slipEsc]).length) ∧
      Request.ofPacket (formatCommandPacket cmdSync [slipEnd] 0xDBDBDBDB) =
        ⟨0, cmdSync, 1, 0xDBDBDBDB, [slipEnd]⟩ :=
  packets_roundTrip [slipEsc] cmdSync [slipEnd] (by decide) 0xDBDBDBDB

end SliverOS.Flasher
