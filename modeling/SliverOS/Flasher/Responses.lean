import SliverOS.Flasher.EspLoader

/-!
# Responses of the bootloader

A packet is read up to a delimiter, and there is one before it as well as after
it. Of a response that is the next one in the buffer, `readPacket` thus reads the
first delimiter only, and throws, and reads the response when it is called once
more (`readPacket_slipEncode`). Responses are never read one by one
(`readPackets_iff`).

What `sendCommand` returns is the first packet it hears, if that is a successful
response, whatever command it answers. So the responses of a history of commands
are matched if and only if no first packet heard is such a response to another
command, or one that was sent for an earlier command (`matched_iff`).
-/

namespace SliverOS.Flasher

open Bytes Streams WebSerialPort

variable {p q r : WebSerialPort} {timeoutMs : ℕ}

/-! ## Responses in the buffer -/

/-- Successive calls of `readPacket`. -/
def readPackets (timeoutMs : ℕ) : ℕ → Loader (List ResponsePacket)
  | 0 => return []
  | n + 1 => do
    let resp ← readPacket timeoutMs
    return resp :: (← readPackets timeoutMs n)

/-- A packet in the buffer is read, with the delimiter after it. -/
theorem readUntil_of_rxBuffer (ht : timeoutMs ≠ 0) (hopen : p.isOpen = true)
    {body rest : List UInt8} (hbody : slipEnd ∉ body)
    (hrx : p.rxBuffer = body ++ slipEnd :: rest) :
    readUntil slipEnd timeoutMs p = .ok (body ++ [slipEnd]) (p.splice (body.length + 1)) := by
  have hmem : slipEnd ∈ p.rxBuffer := by simp [hrx]
  have hfirst : p.rxBuffer.takeWhile (· ≠ slipEnd) = body := by
    rw [hrx, takeWhile_ne_append_cons hbody]
  have hlook := look_of_mem hopen hmem
  rw [hfirst, List.length_append, List.length_singleton] at hlook
  rw [readUntil, if_neg ht]
  cases p.waits with
  | nil => rw [readUntilLoop, hlook, Option.getD_some]
  | cons w ws => rw [readUntilLoop, hlook, Option.getD_some]

/-- What is thrown for a packet without bytes. -/
theorem parseResponsePacket_slipEnd :
    parseResponsePacket [slipEnd] = .error ⟨"Response too short: 0 bytes"⟩ := by
  decide

/-- The delimiter before a response is read by one call, and the response by the next one. -/
theorem readPacket_slipEncode (ht : timeoutMs ≠ 0) (hopen : p.isOpen = true)
    {packet rest : List UInt8} (hlen : 10 ≤ packet.length)
    (hrx : p.rxBuffer = slipEncode packet ++ rest) :
    readPacket timeoutMs p = .error ⟨"Response too short: 0 bytes"⟩ (p.splice 1) ∧
      ∃ q, readPacket timeoutMs (p.splice 1) = .ok (.ofDecoded packet) q ∧ q.rxBuffer = rest := by
  have hstream : p.rxBuffer = [] ++ slipEnd :: (slipBody packet ++ slipEnd :: rest) := by
    simp [hrx, slipEncode]
  have hbody : (p.splice 1).rxBuffer = slipBody packet ++ slipEnd :: rest := by
    rw [splice, hstream]
    rfl
  constructor
  · rw [readPacket, bind_of_ok (readUntil_of_rxBuffer ht hopen List.not_mem_nil hstream)]
    rw [List.nil_append, parseResponsePacket_slipEnd]
    rfl
  · refine ⟨(p.splice 1).splice ((slipBody packet).length + 1), readPacket_eq_ok_iff.2
      ⟨_, readUntil_of_rxBuffer (p := p.splice 1) ht hopen (slipEnd_notMem packet) hbody, ?_⟩, ?_⟩
    · rw [parseResponsePacket_eq_ok_iff, slipDecode_append_slipEnd, slipDecode_slipBody]
      exact ⟨hlen, rfl⟩
    · rw [WebSerialPort.splice, hbody]
      simp

/-- Responses in the buffer are read one by one only if there are none. -/
theorem readPackets_iff (timeoutMs : ℕ) (p : WebSerialPort) {packets : List (List UInt8)}
    (hlen : ∀ packet ∈ packets, 10 ≤ packet.length)
    (hrx : p.rxBuffer = packets.flatMap slipEncode) :
    (∃ q, readPackets timeoutMs packets.length p = .ok (packets.map .ofDecoded) q ∧
      q.rxBuffer = []) ↔ packets = [] := by
  cases packets with
  | nil => exact iff_of_true ⟨p, rfl, hrx⟩ rfl
  | cons packet packets =>
    refine iff_of_false ?_ (List.cons_ne_nil _ _)
    rintro ⟨q, hread, -⟩
    rw [List.length_cons, readPackets, bind_eq_ok_iff] at hread
    obtain ⟨resp, r, hfirst, -⟩ := hread
    obtain ⟨raw, hraw, hparse⟩ := readPacket_eq_ok_iff.1 hfirst
    -- The call returns, so that the port is open, but it reads the first delimiter only.
    obtain ⟨hopen, -⟩ := readUntil_ok hraw
    have ht : timeoutMs ≠ 0 := by
      rintro rfl
      cases hraw
    have hstream : p.rxBuffer =
        slipEncode packet ++ packets.flatMap slipEncode := by rw [hrx, List.flatMap_cons]
    have hthrows := (readPacket_slipEncode ht hopen (hlen packet List.mem_cons_self) hstream).1
    cases hfirst.symm.trans hthrows

/-- A response of the bootloader: a successful one to the command `SYNC`. -/
def syncResponse : List UInt8 := [1, 8, 0, 0, 0, 0, 0, 0, 0, 0]

theorem readPackets_iff_syncResponse :
    (∃ q, readPackets 2000 1 ⟨slipEncode syncResponse, true, [], [], 0⟩ =
      .ok [.ofDecoded syncResponse] q ∧ q.rxBuffer = []) ↔ [syncResponse] = [] :=
  @readPackets_iff 2000 ⟨slipEncode syncResponse, true, [], [], 0⟩ [syncResponse] (by decide) rfl

/-- A response is not read by the call of `readPacket` for it, which throws. -/
theorem response_not_read : ¬∃ q, readPackets 2000 1 ⟨slipEncode syncResponse, true, [], [], 0⟩ =
    .ok [.ofDecoded syncResponse] q ∧ q.rxBuffer = [] := by
  rintro ⟨q, hread, -⟩
  have hthrows : readPackets 2000 1 ⟨slipEncode syncResponse, true, [], [], 0⟩ =
      .error ⟨"Response too short: 0 bytes"⟩
        ⟨[1, 8, 0, 0, 0, 0, 0, 0, 0, 0, 0xC0], true, [], [], 1⟩ := by
    rfl
  cases hread.symm.trans hthrows

/-! ## Responses to commands -/

/-- A call of the loader. -/
inductive LoaderCall
  | enterBootloader
  | sync
  | sendCommand (opcode : UInt8) (payload : List UInt8) (checksum timeoutMs : ℕ)

/-- The port after a call. -/
def LoaderCall.after : LoaderCall → WebSerialPort → WebSerialPort
  | .enterBootloader => Flasher.after Flasher.enterBootloader
  | .sync => Flasher.after Flasher.sync
  | .sendCommand opcode payload checksum timeoutMs =>
    Flasher.after (Flasher.sendCommand opcode payload checksum timeoutMs)

/-- A condition on the calls of a history and the ports they are made on. -/
def EachCall (P : LoaderCall → WebSerialPort → Prop) : List LoaderCall → WebSerialPort → Prop
  | [], _ => True
  | c :: cs, p => P c p ∧ EachCall P cs (c.after p)

/-- The response returned is one to the command, and no byte of it was sent for another one.
    The bytes received and the commands written are numbered; the command that a byte was
    sent for is given by `answers`. -/
def Matched (answers : ℕ → ℕ) : LoaderCall → WebSerialPort → Prop
  | .sendCommand opcode payload checksum timeoutMs, p =>
    ∀ resp q, sendCommand opcode payload checksum timeoutMs p = .ok resp q →
      resp.opcode = opcode ∧ ∀ i, p.taken ≤ i → i < q.taken → answers i = p.written.length
  | _, _ => True

/-- The first packet that is heard is not a successful response to another command, and
    not one with bytes that were sent for another one. -/
def HearsOwn (answers : ℕ → ℕ) : LoaderCall → WebSerialPort → Prop
  | .sendCommand opcode _ _ timeoutMs, p =>
    ∀ raw, timeoutMs ≠ 0 → p.firstPacket = some raw → 10 ≤ (slipDecode raw).length →
      (ResponsePacket.ofDecoded (slipDecode raw)).success = true →
        (slipDecode raw).getD 1 0 = opcode ∧
          ∀ i, p.taken ≤ i → i < p.taken + raw.length → answers i = p.written.length
  | _, _ => True

/-- A call returns a response to its command just when it does not hear another one first. -/
theorem matched_iff_hearsOwn (answers : ℕ → ℕ) (c : LoaderCall) (p : WebSerialPort) :
    Matched answers c p ↔ HearsOwn answers c p := by
  cases c with
  | sendCommand opcode payload checksum timeoutMs =>
    constructor
    · intro h raw ht hfirst hlen hsuccess
      obtain ⟨q, hq, htaken⟩ := exchange_of_firstPacket ht hfirst
        (parseResponsePacket_eq_ok_iff.2 ⟨hlen, rfl⟩) (formatCommandPacket opcode payload checksum)
      have hmatched := h _ q (sendCommand_eq_ok_iff.2 ⟨hq, hsuccess⟩)
      rwa [htaken] at hmatched
    · intro h resp q hq
      obtain ⟨hread, hsuccess⟩ := sendCommand_eq_ok_iff.1 hq
      obtain ⟨ht, raw, hfirst, hparse, htaken⟩ := firstPacket_of_exchange hread
      obtain ⟨hlen, rfl⟩ := parseResponsePacket_eq_ok_iff.1 hparse
      rw [htaken]
      exact h raw ht hfirst hlen hsuccess
  | _ => exact Iff.rfl

/-- In any history, the responses that commands return are matched if and only if no command
    hears first a successful response to another one, or one sent for another one. -/
theorem matched_iff (answers : ℕ → ℕ) (cs : List LoaderCall) (p : WebSerialPort) :
    EachCall (Matched answers) cs p ↔ EachCall (HearsOwn answers) cs p := by
  induction cs generalizing p with
  | nil => exact Iff.rfl
  | cons c cs ih => exact and_congr (matched_iff_hearsOwn answers c p) (ih _)

/-- The call of `readRegister` for a register. -/
def readCall (address : ℕ) : LoaderCall := .sendCommand cmdReadReg (toLE 4 address) 0 2000

/-- A response to `READ_REG`, with the value of the register. -/
def registerResponse (value : ℕ) : List UInt8 := [1, 10, 0, 0] ++ toLE 4 value ++ [0, 0]

/-- The bootloader of an ESP32-S3, which answers each command, while it is written, by one
    response. -/
def answering : WebSerialPort where
  rxBuffer := []
  isOpen := true
  written := []
  waits := [⟨slipEncode syncResponse, .done⟩, ⟨[], .done⟩, ⟨slipEncode syncResponse, .done⟩,
    ⟨slipEncode (registerResponse 0), .done⟩, ⟨slipEncode (registerResponse 0x900), .done⟩]
  taken := 0

/-- The port after `sync`, in two attempts, and a read of a register, which throws. -/
theorem after_readCall : (readCall 0x3FF00044).after (LoaderCall.sync.after answering) =
    { rxBuffer := [1, 8, 0, 0, 0, 0, 0, 0, 0, 0, 0xC0] ++ slipEncode (registerResponse 0)
      isOpen := true
      written := [syncPacket, syncPacket, formatCommandPacket cmdReadReg (toLE 4 0x3FF00044) 0]
      waits := [⟨slipEncode (registerResponse 0x900), .done⟩]
      taken := 13 } := by
  decide +kernel

/-- The next read of a register returns the second response to `SYNC`, and the chip is taken
    for an ESP32. -/
theorem sync_response_left :
    ¬EachCall (Matched (· / 12)) [.sync, readCall 0x3FF00044, readCall 0x60007000] answering ∧
      ∃ q, detectChip (LoaderCall.sync.after answering) = .ok ⟨"ESP32", "esp32", 1, "4MB"⟩ q := by
  constructor
  · rintro ⟨-, -, hmatched, -⟩
    rw [after_readCall] at hmatched
    have hopcode := (hmatched (.ofDecoded syncResponse) _ rfl).1
    exact absurd hopcode (by decide)
  · exact ⟨_, rfl⟩

end SliverOS.Flasher
