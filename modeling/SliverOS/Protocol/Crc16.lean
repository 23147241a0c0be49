import Mathlib

/-!
# The CRC-16 of the frames

Both sides of the link protect a frame by a CRC-16-CCITT (polynomial `0x1021`,
initial value `0xFFFF`, most significant bit first), each with its own code:

* `Firmware.slvrCrc16`, over `uint16_t`, for `os/protocol/host_protocol.c`;
* `Browser.slvrCrc16`, over numbers masked to sixteen bits, for
  `flasher/src/protocol/host_protocol.js`.

They are the same function (`Browser.slvrCrc16_eq`).
-/

namespace SliverOS

namespace Firmware

/-- The body of the inner loop: one bit. -/
def crcBit (crc : UInt16) : UInt16 :=
  if crc &&& 0x8000 ≠ 0 then (crc <<< 1) ^^^ 0x1021 else crc <<< 1

/-- The body of the outer loop: one byte. -/
def crcByte (crc : UInt16) (byte : UInt8) : UInt16 :=
  crcBit^[8] (crc ^^^ (byte.toUInt16 <<< 8))

/-- `slvr_crc16`. -/
def slvrCrc16 (data : List UInt8) : UInt16 := data.foldl crcByte 0xFFFF

end Firmware

namespace Browser

/-- The body of the inner loop: one bit. -/
def crcBit (crc : ℕ) : ℕ :=
  if crc &&& 0x8000 ≠ 0 then ((crc <<< 1) ^^^ 0x1021) &&& 0xFFFF else (crc <<< 1) &&& 0xFFFF

/-- The body of the outer loop: one byte. -/
def crcByte (crc : ℕ) (byte : UInt8) : ℕ := crcBit^[8] (crc ^^^ ((byte.toNat <<< 8) &&& 0xFFFF))

/-- `slvrCrc16`. -/
def slvrCrc16 (data : List UInt8) : ℕ := data.foldl crcByte 0xFFFF

/-- Masking a number to sixteen bits is reducing it as a `uint16_t`. -/
theorem and_mask (n : ℕ) : n &&& 0xFFFF = n % 2 ^ 16 := Nat.and_two_pow_sub_one_eq_mod n 16

theorem crcBit_toNat (crc : UInt16) : crcBit crc.toNat = (Firmware.crcBit crc).toNat := by
  have hbit : crc.toNat &&& 0x8000 = (crc &&& 0x8000).toNat := rfl
  have hzero : (crc &&& 0x8000).toNat ≠ 0 ↔ crc &&& 0x8000 ≠ 0 :=
    not_congr ⟨fun h => UInt16.toNat_inj.1 h, fun h => by rw [h]; rfl⟩
  rw [crcBit, Firmware.crcBit, hbit]
  simp only [hzero, and_mask]
  split
  · rw [Nat.xor_mod_two_pow]
    simp
  · simp

theorem crcByte_toNat (crc : UInt16) (byte : UInt8) :
    crcByte crc.toNat byte = (Firmware.crcByte crc byte).toNat := by
  have hmix : crc.toNat ^^^ ((byte.toNat <<< 8) &&& 0xFFFF) =
      (crc ^^^ (byte.toUInt16 <<< 8)).toNat := by
    rw [and_mask]
    simp
  have hbits : Function.Semiconj UInt16.toNat Firmware.crcBit crcBit := fun c =>
    (crcBit_toNat c).symm
  rw [crcByte, Firmware.crcByte, hmix]
  exact (hbits.iterate_right 8 _).symm

/-- The browser computes the CRC of the firmware. -/
theorem slvrCrc16_eq (data : List UInt8) : slvrCrc16 data = (Firmware.slvrCrc16 data).toNat := by
  have hfold (crc : UInt16) : data.foldl crcByte crc.toNat =
      (data.foldl Firmware.crcByte crc).toNat := by
    induction data generalizing crc with
    | nil => rfl
    | cons b data ih => rw [List.foldl_cons, crcByte_toNat, ih, List.foldl_cons]
  exact hfold 0xFFFF

end Browser

/-- The check value of the CRC, over the digits `"123456789"`. -/
example : Firmware.slvrCrc16 [0x31, 0x32, 0x33, 0x34, 0x35, 0x36, 0x37, 0x38, 0x39] = 0x29B1 := by
  decide +kernel

end SliverOS
