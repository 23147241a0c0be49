import SliverOS.Flasher.EspProtocol
import SliverOS.Streams.Actions

/-!
# The loader

The serial port of `flasher/src/serial/webserial.js` once it is open, and the
loader of `flasher/src/serial/esp_loader.js`.

The code runs between its `await`s. What happens during each of them is given
ahead (`WebSerialPort.waits`): the bytes received, which the read loop appends to
the buffer, and how it ends. When nothing more is given, nothing more happens, and
reads run into their timeouts.

`drain` and the reads take bytes out of the buffer; how many is counted
(`WebSerialPort.taken`), which the code does not.
-/

namespace SliverOS.Flasher

open Bytes Streams

/-! ## The port -/

/-- How a wait ends: as usual, with the timeout of the call reached, with the port closed, or
    with an error. -/
inductive Outcome
  | done
  | expired
  | closed
  | rejected (error : Error)
  deriving DecidableEq, Repr

/-- What happens during an `await`. -/
structure Wait where
  received : List UInt8
  outcome : Outcome
  deriving DecidableEq, Repr

/-- `WebSerialPort`, with what was written to it. -/
structure WebSerialPort where
  rxBuffer : List UInt8
  isOpen : Bool
  written : List (List UInt8)
  waits : List Wait
  taken : ℕ
  deriving DecidableEq, Repr

/-- What awaits the port, and may throw. -/
abbrev Loader := EStateM Error WebSerialPort

namespace WebSerialPort

/-- The port after a wait. -/
def receive (p : WebSerialPort) (w : Wait) : WebSerialPort :=
  { p with
    rxBuffer := p.rxBuffer ++ w.received
    isOpen := p.isOpen && w.outcome ≠ .closed
    waits := p.waits.tail }

/-- `write`. -/
def write (data : List UInt8) : Loader Unit := fun p =>
  if !p.isOpen then .error ⟨"Serial port is not writable."⟩ p
  else
    let p := { p with written := p.written ++ [data] }
    match p.waits with
    | [] => .ok () p
    | ⟨received, .rejected error⟩ :: _ => .error error (p.receive ⟨received, .rejected error⟩)
    | w :: _ => .ok () (p.receive w)

/-- A wait whose end does not matter: `setSignals`, or a `sleep`. -/
def pause : Loader Unit := fun p =>
  match p.waits with
  | [] => .ok () p
  | w :: _ => .ok () (p.receive w)

/-- Bytes removed from the start of the buffer. -/
def splice (p : WebSerialPort) (n : ℕ) : WebSerialPort :=
  { p with rxBuffer := p.rxBuffer.drop n, taken := p.taken + n }

/-- An iteration of the loop of `readUntil`, before its wait, if the loop ends there. -/
def look (p : WebSerialPort) (endByte : UInt8) :
    Option (EStateM.Result Error WebSerialPort (List UInt8)) :=
  if !p.isOpen then some (.error ⟨"Port disconnected during read."⟩ p)
  else if endByte ∈ p.rxBuffer then
    let idx := p.rxBuffer.idxOf endByte
    some (.ok (p.rxBuffer.take (idx + 1)) (p.splice (idx + 1)))
  else none

/-- The timeout of `readUntil`. -/
def timedOut (endByte : UInt8) (timeoutMs : ℕ) : Error :=
  ⟨"Read timeout (" ++ toString timeoutMs ++ "ms) waiting for byte 0x" ++ hex endByte.toNat⟩

/-- The loop of `readUntil`. -/
def readUntilLoop (endByte : UInt8) (timeoutMs : ℕ) : List Wait → Loader (List UInt8)
  | [], p => (p.look endByte).getD (.error (timedOut endByte timeoutMs) p)
  | w :: ws, p =>
    (p.look endByte).getD
      (if w.outcome = .expired then .error (timedOut endByte timeoutMs) (p.receive w)
      else readUntilLoop endByte timeoutMs ws (p.receive w))

/-- `readUntil`. -/
def readUntil (endByte : UInt8) (timeoutMs : ℕ) : Loader (List UInt8) := fun p =>
  if timeoutMs = 0 then .error (timedOut endByte timeoutMs) p
  else readUntilLoop endByte timeoutMs p.waits p

/-- `drain`. -/
def drain : Loader Unit := modify fun p => p.splice p.rxBuffer.length

end WebSerialPort

open WebSerialPort

/-! ## The loader -/

/-- `enterBootloader`. -/
def enterBootloader : Loader Unit := do
  drain
  pause; pause
  pause; pause
  pause; pause
  pause; pause

/-- `hardReset`. -/
def hardReset : Loader Unit := do
  pause; pause
  pause; pause

/-- `readPacket`. -/
def readPacket (timeoutMs : ℕ) : Loader ResponsePacket := do
  let raw ← readUntil slipEnd timeoutMs
  match parseResponsePacket raw with
  | .ok resp => return resp
  | .error e => throw e

/-- The packet of `sync`. -/
def syncPacket : List UInt8 :=
  formatCommandPacket cmdSync (List.replicate 9 [0x07, 0x07, 0x12, 0x20]).flatten 0

/-- The attempts of `sync` that are left. -/
def syncAttempts : ℕ → Loader Bool
  | 0 => throw ⟨"Failed to synchronize with ESP ROM bootloader. " ++
      "Ensure device is connected and in boot mode."⟩
  | n + 1 => do
    let synced ← tryCatch
      (do
        write syncPacket
        let resp ← readPacket 500
        return resp.opcode == cmdSync && resp.success)
      (fun _ => do
        pause
        return false)
    if synced then return true else syncAttempts n

/-- `sync`. -/
def sync : Loader Bool := syncAttempts 10

/-- What `sendCommand` throws when the bootloader reports a failure. -/
def commandFailed (opcode : UInt8) (resp : ResponsePacket) : Error :=
  ⟨"Command 0x" ++ hex opcode.toNat ++ " failed: status=" ++ toString resp.status.toNat ++
    ", error=" ++ toString resp.error.toNat⟩

/-- `sendCommand`. -/
def sendCommand (opcode : UInt8) (payload : List UInt8) (checksum timeoutMs : ℕ) :
    Loader ResponsePacket := do
  write (formatCommandPacket opcode payload checksum)
  let resp ← readPacket timeoutMs
  if !resp.success then throw (commandFailed opcode resp)
  return resp

/-- `readRegister`. -/
def readRegister (address : ℕ) : Loader ℕ := do
  let resp ← sendCommand cmdReadReg (toLE 4 address) 0 2000
  return resp.value

/-- What `detectChip` returns. -/
structure Chip where
  family : String
  targetKey : String
  revision : ℕ
  flashSize : String
  deriving DecidableEq, Repr

/-- The bitwise and of two numbers, which is signed. -/
def bitAnd (a b : ℕ) : ℤ := (BitVec.ofNat 32 a &&& BitVec.ofNat 32 b).toInt

/-- `detectChip`. -/
def detectChip : Loader Chip := do
  let esp32 : Option Chip ← tryCatch
    (do
      let reg32 ← readRegister 0x3FF00044
      if reg32 ≠ 0 ∧ bitAnd reg32 0xFFFF0000 ≠ 0xFFFF0000 then
        return some ⟨"ESP32", "esp32", (reg32 >>> 12) &&& 0x07, "4MB"⟩
      else return none)
    (fun _ => return none)
  match esp32 with
  | some chip => return chip
  | none =>
    let other : Option Chip ← tryCatch
      (do
        let sysReg ← readRegister 0x60007000
        let chipId := (sysReg >>> 8) &&& 0xFF
        if chipId = 0x05 then return some ⟨"ESP32-C3", "esp32c3", 3, "4MB"⟩
        else if chipId = 0x09 then return some ⟨"ESP32-S3", "esp32s3", 1, "8MB"⟩
        else return none)
      (fun _ => return none)
    return other.getD ⟨"ESP32", "esp32", 1, "4MB"⟩

/-- The number of blocks of an image, `Math.ceil(size / blockSize)`. -/
def blockCount (size blockSize : ℕ) : ℕ := (size + blockSize - 1) / blockSize

/-- `flashBegin`. -/
def flashBegin (size offset blockSize : ℕ) : Loader Unit := do
  let payload := toLE 4 size ++ toLE 4 (blockCount size blockSize) ++ toLE 4 blockSize ++
    toLE 4 offset
  let eraseTimeout := max 5000 (blockCount size 32768 * 1000)
  let _ ← sendCommand cmdFlashBegin payload 0 eraseTimeout

/-- `flashData`. -/
def flashData (chunk : List UInt8) (seq : ℕ) : Loader Unit := do
  let header := toLE 4 chunk.length ++ toLE 4 seq ++ List.replicate 8 0
  let _ ← sendCommand cmdFlashData (header ++ chunk) (calcChecksum chunk) 3000

/-- `flashEnd`. -/
def flashEnd (reboot : Bool) : Loader Unit := do
  let _ ← sendCommand cmdFlashEnd [if reboot then 1 else 0, 0, 0, 0] 0 2000

/-- A digest in base 16. -/
def hexDigest (digest : List UInt8) : String :=
  String.join (digest.map fun b => (hex b.toNat).leftpad 2 '0')

/-- The payload of the query of `verifyFlashMD5`. -/
def md5Payload (offset size : ℕ) : List UInt8 :=
  toLE 4 offset ++ toLE 4 size ++ List.replicate 8 0

/-- `verifyFlashMD5`. -/
def verifyFlashMD5 (offset size : ℕ) (expectedMD5 : Option String) : Loader Bool :=
  tryCatch
    (do
      let resp ← sendCommand cmdSpiFlashMd5 (md5Payload offset size) 0 8000
      if 16 ≤ resp.payload.length then
        let digest := hexDigest (resp.payload.take 16)
        let expected := expectedMD5.getD ""
        if expected ≠ "" ∧ digest.toLower ≠ expected.toLower then
          throw ⟨"MD5 Verification mismatch! Expected " ++ expected ++ ", got " ++ digest⟩
      return true)
    (fun _ => return true)

/-! ## What the calls read -/

namespace WebSerialPort

variable {p q : WebSerialPort} {ws : List Wait} {e : UInt8} {t : ℕ} {raw : List UInt8}

/-- The bytes received in some waits, up to the one that ends the call. -/
def arrivals : List Wait → List UInt8
  | [] => []
  | w :: ws =>
    if w.outcome = .expired ∨ w.outcome = .closed then [] else w.received ++ arrivals ws

theorem arrivals_cons {w : Wait} (h : ¬(w.outcome = .expired ∨ w.outcome = .closed))
    (ws : List Wait) : arrivals (w :: ws) = w.received ++ arrivals ws :=
  if_neg h

theorem isOpen_receive {w : Wait} (h : w.outcome ≠ .closed) :
    (p.receive w).isOpen = p.isOpen := by
  simp [receive, h]

theorem look_of_mem (hopen : p.isOpen = true) (he : e ∈ p.rxBuffer) :
    p.look e = some (.ok (p.rxBuffer.takeWhile (· ≠ e) ++ [e])
      (p.splice (p.rxBuffer.takeWhile (· ≠ e) ++ [e]).length)) := by
  have hidx := List.idxOf_lt_length_of_mem he
  rw [look, if_neg (by simp [hopen]), if_pos he, ← take_idxOf he, List.length_take,
    Nat.min_eq_left hidx]

theorem look_of_notMem (hopen : p.isOpen = true) (he : e ∉ p.rxBuffer) : p.look e = none := by
  rw [look, if_neg (by simp [hopen]), if_neg he]

theorem look_of_closed (hopen : p.isOpen ≠ true) :
    p.look e = some (.error ⟨"Port disconnected during read."⟩ p) := by
  rw [look, if_pos (by simpa using hopen)]

/-- What comes up to the end looked for is read, in the buffer or as it is received. -/
theorem readUntilLoop_of_mem (hopen : p.isOpen = true) (he : e ∈ p.rxBuffer ++ arrivals ws) :
    ∃ q, readUntilLoop e t ws p = .ok ((p.rxBuffer ++ arrivals ws).takeWhile (· ≠ e) ++ [e]) q ∧
      q.taken = p.taken + ((p.rxBuffer ++ arrivals ws).takeWhile (· ≠ e) ++ [e]).length := by
  induction ws generalizing p with
  | nil =>
    rw [arrivals, List.append_nil] at he ⊢
    rw [readUntilLoop, look_of_mem hopen he]
    exact ⟨_, rfl, rfl⟩
  | cons w ws ih =>
    by_cases hrx : e ∈ p.rxBuffer
    · rw [takeWhile_ne_append_of_mem hrx, readUntilLoop, look_of_mem hopen hrx]
      exact ⟨_, rfl, rfl⟩
    have hgoes : ¬(w.outcome = .expired ∨ w.outcome = .closed) := by
      intro hends
      rw [arrivals, if_pos hends, List.append_nil] at he
      exact hrx he
    obtain ⟨hexpired, hclosed⟩ := not_or.1 hgoes
    rw [arrivals_cons hgoes, ← List.append_assoc] at he ⊢
    rw [readUntilLoop, look_of_notMem hopen hrx, Option.getD_none, if_neg hexpired]
    exact ih ((isOpen_receive hclosed).trans hopen) he

/-- Otherwise the call fails. -/
theorem readUntilLoop_of_notMem (h : ¬(p.isOpen = true ∧ e ∈ p.rxBuffer ++ arrivals ws)) :
    ∃ err q, readUntilLoop e t ws p = .error err q := by
  induction ws generalizing p with
  | nil =>
    by_cases hopen : p.isOpen = true
    · have he : e ∉ p.rxBuffer := fun he => h ⟨hopen, List.mem_append_left _ he⟩
      rw [readUntilLoop, look_of_notMem hopen he]
      exact ⟨_, _, rfl⟩
    · rw [readUntilLoop, look_of_closed hopen]
      exact ⟨_, _, rfl⟩
  | cons w ws ih =>
    by_cases hopen : p.isOpen = true
    swap
    · rw [readUntilLoop, look_of_closed hopen]
      exact ⟨_, _, rfl⟩
    have he : e ∉ p.rxBuffer := fun he => h ⟨hopen, List.mem_append_left _ he⟩
    rw [readUntilLoop, look_of_notMem hopen he, Option.getD_none]
    split_ifs with hexpired
    · exact ⟨_, _, rfl⟩
    refine ih fun ⟨hstill, hmem⟩ => ?_
    -- What is waited for would have come in the rest of the waits.
    have hclosed : w.outcome ≠ .closed := by
      intro hclosed
      simp [receive, hclosed] at hstill
    refine h ⟨hopen, ?_⟩
    rw [arrivals_cons (not_or.2 ⟨hexpired, hclosed⟩), ← List.append_assoc]
    exact hmem

theorem written_of_look (h : p.look e = some (.ok raw q)) : q.written = p.written := by
  rw [look] at h
  split_ifs at h
  · cases h
  · cases h
    rfl

/-- Nothing is written to read. -/
theorem written_of_readUntilLoop (h : readUntilLoop e t ws p = .ok raw q) :
    q.written = p.written := by
  induction ws generalizing p with
  | nil =>
    rw [readUntilLoop] at h
    cases hlook : p.look e with
    | none =>
      rw [hlook] at h
      cases h
    | some r =>
      rw [hlook, Option.getD_some] at h
      exact written_of_look (hlook.trans (congrArg some h))
  | cons w ws ih =>
    rw [readUntilLoop] at h
    cases hlook : p.look e with
    | none =>
      rw [hlook, Option.getD_none] at h
      split_ifs at h
      exact (ih (p := p.receive w) h).trans rfl
    | some r =>
      rw [hlook, Option.getD_some] at h
      exact written_of_look (hlook.trans (congrArg some h))

theorem written_of_readUntil (h : readUntil e t p = .ok raw q) : q.written = p.written := by
  rw [readUntil] at h
  split_ifs at h
  exact written_of_readUntilLoop h

/-- What `readUntil` reads. -/
theorem readUntil_ok (h : readUntil e t p = .ok raw q) :
    p.isOpen = true ∧ e ∈ p.rxBuffer ++ arrivals p.waits ∧
      raw = (p.rxBuffer ++ arrivals p.waits).takeWhile (· ≠ e) ++ [e] ∧
      q.taken = p.taken + raw.length := by
  rw [readUntil] at h
  split_ifs at h
  by_cases hmem : p.isOpen = true ∧ e ∈ p.rxBuffer ++ arrivals p.waits
  · obtain ⟨q', hread, htaken⟩ := readUntilLoop_of_mem hmem.1 hmem.2 (t := t)
    obtain ⟨rfl, rfl⟩ := EStateM.Result.ok.inj (h.symm.trans hread)
    exact ⟨hmem.1, hmem.2, rfl, htaken⟩
  · obtain ⟨err, q', hread⟩ := readUntilLoop_of_notMem hmem (t := t)
    cases h.symm.trans hread

end WebSerialPort

/-! ## The answers to commands -/

/-- The bytes that the call for a command reads from, once the command is written: those in
    the buffer, and those received until the call ends. -/
def WebSerialPort.heard (p : WebSerialPort) : Option (List UInt8) :=
  if !p.isOpen then none
  else match p.waits with
    | [] => some p.rxBuffer
    | ⟨_, .rejected _⟩ :: _ => none
    | ⟨_, .closed⟩ :: _ => none
    | w :: ws => some (p.rxBuffer ++ w.received ++ arrivals ws)

/-- The first packet of these bytes, with its end. -/
def WebSerialPort.firstPacket (p : WebSerialPort) : Option (List UInt8) :=
  p.heard.bind fun stream =>
    if slipEnd ∈ stream then some (stream.takeWhile (· ≠ slipEnd) ++ [slipEnd]) else none

variable {p q r : WebSerialPort} {opcode : UInt8} {payload data raw : List UInt8}
  {checksum timeoutMs : ℕ} {resp : ResponsePacket}

/-- After a command is written, what is heard is read, unless the port has been closed. -/
theorem write_ok (h : write data p = .ok () q) :
    p.heard = (if q.isOpen then some (q.rxBuffer ++ arrivals q.waits) else none) ∧
      q.taken = p.taken ∧ q.written = p.written ++ [data] := by
  obtain ⟨rx, isOpen, written, waits, taken⟩ := p
  cases isOpen with
  | false => cases h
  | true =>
    cases waits with
    | nil =>
      cases h
      exact ⟨by simp [heard, arrivals], rfl, rfl⟩
    | cons w ws =>
      obtain ⟨received, outcome⟩ := w
      cases outcome <;> cases h <;> exact ⟨by simp [heard, receive], rfl, rfl⟩

theorem write_of_heard {stream : List UInt8} (h : p.heard = some stream) (data : List UInt8) :
    ∃ q, write data p = .ok () q := by
  obtain ⟨rx, isOpen, written, waits, taken⟩ := p
  cases isOpen with
  | false => cases h
  | true =>
    cases waits with
    | nil => exact ⟨_, rfl⟩
    | cons w ws =>
      obtain ⟨received, outcome⟩ := w
      cases outcome with
      | rejected error => cases h
      | _ => exact ⟨_, rfl⟩

/-- What `readPacket` reads. -/
theorem readPacket_eq_ok_iff : readPacket timeoutMs p = .ok resp q ↔
    ∃ raw, readUntil slipEnd timeoutMs p = .ok raw q ∧ parseResponsePacket raw = .ok resp := by
  rw [readPacket, bind_eq_ok_iff]
  constructor
  · rintro ⟨raw, r, hraw, hresp⟩
    cases hparse : parseResponsePacket raw with
    | error e =>
      rw [hparse] at hresp
      cases hresp
    | ok resp' =>
      rw [hparse] at hresp
      cases hresp
      exact ⟨raw, hraw, hparse⟩
  · rintro ⟨raw, hraw, hparse⟩
    refine ⟨raw, q, hraw, ?_⟩
    rw [hparse]
    rfl

/-- A packet written, and the one read then. -/
def exchange (data : List UInt8) (timeoutMs : ℕ) : Loader ResponsePacket := do
  write data
  readPacket timeoutMs

/-- What is read after a packet was written is the first packet of what is heard. -/
theorem firstPacket_of_exchange (h : exchange data timeoutMs p = .ok resp q) :
    timeoutMs ≠ 0 ∧ ∃ raw, p.firstPacket = some raw ∧ parseResponsePacket raw = .ok resp ∧
      q.taken = p.taken + raw.length := by
  obtain ⟨_, r, hwrite, hread⟩ := bind_eq_ok_iff.1 h
  obtain ⟨raw, hraw, hparse⟩ := readPacket_eq_ok_iff.1 hread
  obtain ⟨hheard, htaken, _⟩ := write_ok hwrite
  obtain ⟨hopen, hmem, hraweq, htaken'⟩ := readUntil_ok hraw
  refine ⟨?_, raw, ?_, hparse, by rw [htaken', htaken]⟩
  · rintro rfl
    cases hraw
  · rw [firstPacket, hheard, if_pos hopen, Option.bind_some, if_pos hmem, hraweq]

/-- The first packet of what is heard is read after a packet was written. -/
theorem exchange_of_firstPacket (ht : timeoutMs ≠ 0) (h : p.firstPacket = some raw)
    (hparse : parseResponsePacket raw = .ok resp) (data : List UInt8) :
    ∃ q, exchange data timeoutMs p = .ok resp q ∧ q.taken = p.taken + raw.length := by
  rw [firstPacket] at h
  obtain ⟨stream, hstream, hfirst⟩ := Option.bind_eq_some_iff.1 h
  split_ifs at hfirst with hmem
  obtain rfl := Option.some.inj hfirst
  obtain ⟨r, hwrite⟩ := write_of_heard hstream data
  obtain ⟨hheard, htaken, _⟩ := write_ok hwrite
  rw [hstream] at hheard
  split_ifs at hheard with hopen
  obtain rfl := Option.some.inj hheard
  obtain ⟨q, hread, htaken'⟩ := readUntilLoop_of_mem hopen hmem (t := timeoutMs)
  refine ⟨q, bind_eq_ok_iff.2 ⟨(), r, hwrite, readPacket_eq_ok_iff.2 ⟨_, ?_, hparse⟩⟩,
    by rw [htaken', htaken]⟩
  rw [readUntil, if_neg ht]
  exact hread

/-- `sendCommand` returns what is read after the command was written, if it reports no failure. -/
theorem sendCommand_eq_ok_iff : sendCommand opcode payload checksum timeoutMs p = .ok resp q ↔
    exchange (formatCommandPacket opcode payload checksum) timeoutMs p = .ok resp q ∧
      resp.success = true := by
  have hcheck (resp' : ResponsePacket) (q' : WebSerialPort) :
      (do
        if !resp'.success then throw (commandFailed opcode resp')
        return resp' : Loader ResponsePacket) q' = .ok resp q ↔
      resp' = resp ∧ q' = q ∧ resp.success = true := by
    by_cases hsuccess : resp'.success = true
    · rw [if_neg (by simp [hsuccess])]
      change EStateM.Result.ok resp' q' = _ ↔ _
      rw [EStateM.Result.ok.injEq]
      exact ⟨fun ⟨hr, hq⟩ => ⟨hr, hq, hr ▸ hsuccess⟩, fun ⟨hr, hq, _⟩ => ⟨hr, hq⟩⟩
    · rw [if_pos (by simpa using hsuccess)]
      exact ⟨fun h => (by cases h), fun ⟨hr, _, hs⟩ => absurd (hr ▸ hs) hsuccess⟩
  rw [sendCommand, exchange, bind_eq_ok_iff, bind_eq_ok_iff]
  constructor
  · rintro ⟨_, r, hwrite, hrest⟩
    obtain ⟨resp', q', hread, hrest⟩ := bind_eq_ok_iff.1 hrest
    obtain ⟨rfl, rfl, hsuccess⟩ := (hcheck resp' q').1 hrest
    exact ⟨⟨(), r, hwrite, hread⟩, hsuccess⟩
  · rintro ⟨⟨_, r, hwrite, hread⟩, hsuccess⟩
    exact ⟨(), r, hwrite, bind_eq_ok_iff.2 ⟨resp, q, hread, (hcheck resp q).2 ⟨rfl, rfl, hsuccess⟩⟩⟩

/-- The port after a call, whether it returns or throws. -/
def after {α : Type} (x : Loader α) (p : WebSerialPort) : WebSerialPort :=
  match x p with
  | .ok _ q => q
  | .error _ q => q

theorem after_of_ok {α : Type} {x : Loader α} {a : α} (h : x p = .ok a q) : after x p = q := by
  rw [after, h]

end SliverOS.Flasher
