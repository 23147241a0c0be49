import SliverOS.Streams.Stuffing
import SliverOS.Bytes.Memory

/-!
# The protocol of the ROM bootloader

The packets of `flasher/src/serial/esp_protocol.js`. They are framed with SLIP,
which is a stuffing with a delimiter before the packet and another one after it,
and decoded with all of the delimiters skipped (`slipDecode_slipEncode`).

What the code throws is an `Error`, of which the message is kept.
-/

namespace SliverOS.Flasher

open Bytes Streams

/-! ## Constants -/

/-- `SLIP_END`. -/
def slipEnd : UInt8 := 0xC0

/-- `SLIP_ESC`. -/
def slipEsc : UInt8 := 0xDB

/-- `SLIP_ESC_END`. -/
def slipEscEnd : UInt8 := 0xDC

/-- `SLIP_ESC_ESC`. -/
def slipEscEsc : UInt8 := 0xDD

/-- `ESP_CMD_FLASH_BEGIN`. -/
def cmdFlashBegin : UInt8 := 0x02

/-- `ESP_CMD_FLASH_DATA`. -/
def cmdFlashData : UInt8 := 0x03

/-- `ESP_CMD_FLASH_END`. -/
def cmdFlashEnd : UInt8 := 0x04

/-- `ESP_CMD_SYNC`. -/
def cmdSync : UInt8 := 0x08

/-- `ESP_CMD_READ_REG`. -/
def cmdReadReg : UInt8 := 0x0A

/-- `ESP_CMD_SPI_FLASH_MD5`. -/
def cmdSpiFlashMd5 : UInt8 := 0x13

/-! ## SLIP -/

/-- The symbols of SLIP. -/
def slip : Stuffing UInt8 where
  delim := slipEnd
  esc := slipEsc
  escDelim := slipEscEnd
  escEsc := slipEscEsc
  esc_ne := by decide
  escDelim_ne := by decide
  escEsc_ne := by decide
  escEsc_ne_escDelim := by decide

/-- The packet between the delimiters, in `slipEncode`. -/
def slipBody (data : List UInt8) : List UInt8 := data.flatMap slip.stuff

/-- `slipEncode`. -/
def slipEncode (data : List UInt8) : List UInt8 := [slipEnd] ++ slipBody data ++ [slipEnd]

/-- `slipDecode`. -/
def slipDecode (data : List UInt8) : List UInt8 := slip.unstuff false data

theorem slipEnd_notMem (data : List UInt8) : slipEnd ∉ slipBody data := slip.delim_notMem data

/-- The delimiter after a packet is skipped. -/
theorem slipDecode_append_slipEnd (data : List UInt8) :
    slipDecode (data ++ [slipEnd]) = slipDecode data :=
  slip.unstuff_append_delim false data

theorem slipDecode_slipBody (data : List UInt8) : slipDecode (slipBody data) = data := by
  have hbody := slip.unstuff_flatMap_append data []
  rwa [List.append_nil, Stuffing.unstuff_nil, List.append_nil] at hbody

/-- A packet is decoded to what it was. -/
theorem slipDecode_slipEncode (data : List UInt8) : slipDecode (slipEncode data) = data := by
  rw [slipEncode, slipDecode_append_slipEnd]
  exact (slip.unstuff_delim false _).trans (slipDecode_slipBody data)

/-! ## Commands -/

/-- `calcChecksum`. -/
def calcChecksum (data : List UInt8) : ℕ := data.foldl (fun checksum b => checksum ^^^ b.toNat) 0xEF

/-- `formatCommandPacket`. -/
def formatCommandPacket (opcode : UInt8) (payload : List UInt8) (checksum : ℕ) : List UInt8 :=
  slipEncode ([0, opcode] ++ toLE 2 payload.length ++ toLE 4 checksum ++ payload)

/-! ## Responses -/

/-- An `Error`. -/
structure Error where
  message : String
  deriving DecidableEq, Repr

/-- A number in base 16, `toString(16)`. -/
def hex (n : ℕ) : String := String.ofList (Nat.toDigits 16 n)

/-- What `parseResponsePacket` returns. -/
structure ResponsePacket where
  direction : UInt8
  opcode : UInt8
  size : ℕ
  value : ℕ
  payload : List UInt8
  status : UInt8
  error : UInt8
  success : Bool
  deriving DecidableEq, Repr

/-- The response that some bytes are, once decoded. -/
def ResponsePacket.ofDecoded (decoded : List UInt8) : ResponsePacket :=
  let byte (i : ℕ) : ℕ := (decoded.getD i 0).toNat
  let size := byte 2 ||| byte 3 <<< 8
  let statusOffset := decoded.length - 2
  let status := decoded.getD statusOffset 0
  let error := decoded.getD (statusOffset + 1) 0
  { direction := decoded.getD 0 0
    opcode := decoded.getD 1 0
    size
    value := byte 4 ||| byte 5 <<< 8 ||| byte 6 <<< 16 ||| byte 7 <<< 24
    payload := (decoded.take (8 + size)).drop 8
    status
    error
    success := status = 0 ∧ error = 0 }

/-- `parseResponsePacket`. -/
def parseResponsePacket (data : List UInt8) : Except Error ResponsePacket :=
  let decoded := slipDecode data
  if decoded.length < 10 then
    .error ⟨"Response too short: " ++ toString decoded.length ++ " bytes"⟩
  else .ok (.ofDecoded decoded)

/-- A response is parsed if it is long enough. -/
theorem parseResponsePacket_eq_ok_iff {data : List UInt8} {resp : ResponsePacket} :
    parseResponsePacket data = .ok resp ↔
      10 ≤ (slipDecode data).length ∧ .ofDecoded (slipDecode data) = resp := by
  simp only [parseResponsePacket]
  split_ifs with hlen
  · simp [hlen]
  · simp [Nat.not_lt.1 hlen]

end SliverOS.Flasher
