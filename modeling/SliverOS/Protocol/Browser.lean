import SliverOS.Protocol.Wire

/-!
# The browser side of the protocol

The encoder and the stream parser of `flasher/src/protocol/host_protocol.js`.

The parser appends each chunk to its buffer, and looks there for the magic, as
long as there are enough bytes for a frame. It drops bytes in several places,
and some of them before it can tell what they start; but never the start of a
frame. Its buffer is thus enough to go on with (`Sound`), whatever comes next,
and it stops with no frame left in it, so that

* `feedAll_eq`: whichever way a stream is cut, the frames passed to the
  callback are those of the greedy scan of the whole, and the CRC errors counted
  those of this scan;
* `feedAll_cuts`: two ways of cutting a stream give the same frames.

A callback that throws leaves `feed` with the frame already removed from the buffer, and the
rest of it still there. What holds of the loop is thus said of it with such a callback
(`loopWith_rule`), and an exception loses nothing (`passed_feedAllWith`).
-/

namespace SliverOS.Browser

open Streams Wire

/-! ## The code -/

/-- The argument of `encodeFrame`, with its optional fields. -/
structure FrameArg where
  type : ℕ
  flags : Option ℕ
  sequence : Option ℕ
  payload : Option (List UInt8)
  deriving DecidableEq

/-- What `encodeFrame` throws: the text of an `Error`. -/
inductive EncodeError
  | error (message : String)
  deriving DecidableEq

/-- `encodeFrame`. -/
def encodeFrame (frame : FrameArg) : Except EncodeError (List UInt8) :=
  let payload := frame.payload.getD []
  if maxPayloadLen < payload.length then
    .error (.error "Payload exceeds maximum length of 512")
  else
    let out := magic ++ [version1, UInt8.ofNat frame.type, UInt8.ofNat (frame.flags.getD 0),
      UInt8.ofNat (frame.sequence.getD 0 &&& 0xFF), UInt8.ofNat ((payload.length >>> 8) &&& 0xFF),
      UInt8.ofNat (payload.length &&& 0xFF)] ++ payload
    let crc := slvrCrc16 (out.drop 4)
    .ok (out ++ [UInt8.ofNat ((crc >>> 8) &&& 0xFF), UInt8.ofNat (crc &&& 0xFF)])

/-- `SlvrStreamParser`: its buffer is the first `bufLen` bytes of `buffer`. -/
structure SlvrStreamParser where
  buffer : List UInt8
  bufLen : ℕ
  droppedBytes : ℕ
  crcErrors : ℕ
  deriving DecidableEq

/-- The constructor of `SlvrStreamParser`. -/
def SlvrStreamParser.new : SlvrStreamParser :=
  ⟨List.replicate ((frameOverhead + maxPayloadLen) * 4) 0, 0, 0, 0⟩

/-- `Uint8Array.prototype.set`. -/
def setAt (buffer chunk : List UInt8) (offset : ℕ) : List UInt8 :=
  buffer.take offset ++ chunk ++ buffer.drop (offset + chunk.length)

/-- `Uint8Array.prototype.copyWithin`, to the start of the array. -/
def copyWithin (buffer : List UInt8) (start finish : ℕ) : List UInt8 :=
  (buffer.take finish).drop start ++ buffer.drop (finish - start)

/-- What an iteration of the loop of `feed` ends with: a `break`, the next
    iteration, or a call of `onFrame` before it. -/
inductive Iteration
  | stop (p : SlvrStreamParser)
  | next (p : SlvrStreamParser)
  | frame (p : SlvrStreamParser) (f : Received)
  deriving DecidableEq

namespace SlvrStreamParser

/-- Bytes removed from the buffer, as those of a frame are. -/
def advance (p : SlvrStreamParser) (n : ℕ) : SlvrStreamParser :=
  { p with buffer := copyWithin p.buffer n p.bufLen, bufLen := p.bufLen - n }

/-- Bytes removed from the buffer and counted as dropped. -/
def discard (p : SlvrStreamParser) (n : ℕ) : SlvrStreamParser :=
  { p.advance n with droppedBytes := p.droppedBytes + n }

/-- The byte of the buffer at an index. -/
def byteAt (p : SlvrStreamParser) (i : ℕ) : UInt8 := p.buffer.getD i 0

/-- The loop of `feed` looking for the magic. -/
def findMagic (p : SlvrStreamParser) : Option ℕ :=
  (List.range (p.bufLen - 3)).find? fun i => (p.buffer.drop i).take 4 = magic

/-- An iteration of the loop of `feed`, with the magic at the start of the buffer. -/
def examine (p : SlvrStreamParser) : Iteration :=
  if p.bufLen < 10 then .stop p
  else if p.byteAt 4 ≠ version1 then .next (p.discard 1)
  else
    let payloadLen := ((p.byteAt 8).toNat <<< 8) ||| (p.byteAt 9).toNat
    if maxPayloadLen < payloadLen then .next (p.discard 1)
    else if p.bufLen < frameOverhead + payloadLen then .stop p
    else
      let crcExpected :=
        ((p.byteAt (10 + payloadLen)).toNat <<< 8) ||| (p.byteAt (11 + payloadLen)).toNat
      let crcActual := slvrCrc16 ((p.buffer.take (10 + payloadLen)).drop 4)
      if crcExpected = crcActual then
        .frame (p.advance (frameOverhead + payloadLen))
          { version := p.byteAt 4
            type := p.byteAt 5
            flags := p.byteAt 6
            sequence := p.byteAt 7
            length := payloadLen
            payload := (p.buffer.take (10 + payloadLen)).drop 10
            crc := crcActual }
      else .next { p.discard 1 with crcErrors := p.crcErrors + 1 }

/-- The body of the loop of `feed`. -/
def iterate (p : SlvrStreamParser) : Iteration :=
  match p.findMagic with
  | none => .stop (p.discard (p.bufLen - min 3 p.bufLen))
  | some magicIdx => (if 0 < magicIdx then p.discard magicIdx else p).examine

/-- The loop of `feed`, for at most as many iterations as `fuel`: the parser
    after it, and the frames passed to the callback. -/
def loop : ℕ → SlvrStreamParser → SlvrStreamParser × List Received
  | 0, p => (p, [])
  | fuel + 1, p =>
    if p.bufLen < frameOverhead then (p, [])
    else
      match p.iterate with
      | .stop p => (p, [])
      | .next p => loop fuel p
      | .frame p f => ((loop fuel p).1, f :: (loop fuel p).2)

/-- The buffer, expanded if needed to hold `n` more bytes. -/
def expand (p : SlvrStreamParser) (n : ℕ) : List UInt8 :=
  if p.buffer.length < p.bufLen + n then
    setAt (List.replicate (max (p.buffer.length * 2) (p.bufLen + n + 1024)) 0)
      (p.buffer.take p.bufLen) 0
  else p.buffer

/-- A chunk appended to the buffer. -/
def push (p : SlvrStreamParser) (chunk : List UInt8) : SlvrStreamParser :=
  { p with
    buffer := setAt (p.expand chunk.length) chunk p.bufLen
    bufLen := p.bufLen + chunk.length }

/-- `feed`, with a callback that does not throw. Every iteration but the last
    one shortens the buffer: there are at most `bufLen` of them. -/
def feed (p : SlvrStreamParser) (chunk : List UInt8) : SlvrStreamParser × List Received :=
  if chunk = [] then (p, []) else loop (p.push chunk).bufLen (p.push chunk)

/-- Feeding chunks in turn: the parser after them, and the frames passed to the callback. -/
def feedAll (p : SlvrStreamParser) : List (List UInt8) → SlvrStreamParser × List Received
  | [] => (p, [])
  | chunk :: chunks =>
    ((feedAll (p.feed chunk).1 chunks).1, (p.feed chunk).2 ++ (feedAll (p.feed chunk).1 chunks).2)

/-- A run of `feed` with a callback that may throw: the parser after it, the frames passed
    to the callback so far, and whether the exception leaves `feed`. -/
structure Call where
  parser : SlvrStreamParser
  passed : List Received
  threw : Bool
  deriving DecidableEq

section

-- Whether the callback throws, by the frames passed to it before and the frame.
variable (throws : List Received → Received → Bool)

/-- The loop of `feed` with a callback that may throw: the frame is already removed from
    the buffer when it does. -/
def loopWith : ℕ → SlvrStreamParser → List Received → Call
  | 0, p, passed => ⟨p, passed, false⟩
  | fuel + 1, p, passed =>
    if p.bufLen < frameOverhead then ⟨p, passed, false⟩
    else
      match p.iterate with
      | .stop p => ⟨p, passed, false⟩
      | .next p => loopWith fuel p passed
      | .frame p f =>
        if throws passed f then ⟨p, passed ++ [f], true⟩ else loopWith fuel p (passed ++ [f])

/-- `feed`, with a callback that may throw. -/
def feedWith (p : SlvrStreamParser) (passed : List Received) (chunk : List UInt8) : Call :=
  if chunk = [] then ⟨p, passed, false⟩
  else loopWith throws (p.push chunk).bufLen (p.push chunk) passed

/-- Feeding chunks in turn, the exceptions being caught between them. -/
def feedAllWith (c : Call) (chunks : List (List UInt8)) : Call :=
  chunks.foldl (fun c chunk => feedWith throws c.parser c.passed chunk) c

end

/-! ## The buffer -/

/-- The bytes in the buffer. -/
def pending (p : SlvrStreamParser) : List UInt8 := p.buffer.take p.bufLen

/-- The buffer holds its bytes. -/
def Valid (p : SlvrStreamParser) : Prop := p.bufLen ≤ p.buffer.length

variable {p : SlvrStreamParser}

theorem length_pending (hp : p.Valid) : p.pending.length = p.bufLen := by
  rw [pending, List.length_take, Nat.min_eq_left hp]

theorem valid_advance (hp : p.Valid) {n : ℕ} (hn : n ≤ p.bufLen) : (p.advance n).Valid := by
  simp only [Valid, advance, copyWithin, List.length_append, List.length_drop,
    List.length_take] at *
  omega

theorem pending_advance (hp : p.Valid) (n : ℕ) :
    (p.advance n).pending = p.pending.drop n := by
  have hlen : (p.pending.drop n).length = p.bufLen - n := by
    rw [List.length_drop, length_pending hp]
  simp only [pending, advance, copyWithin] at hlen ⊢
  rw [← hlen, List.take_left]

theorem length_expand {n : ℕ} : p.bufLen + n ≤ (p.expand n).length := by
  rw [expand]
  split
  · simp only [setAt, List.length_append, List.length_take, List.length_drop,
      List.length_replicate]
    omega
  · omega

theorem take_expand (hp : p.Valid) {n : ℕ} : (p.expand n).take p.bufLen = p.pending := by
  rw [expand]
  split
  · have hlen := length_pending hp
    rw [pending] at hlen
    simp only [setAt, List.take_zero, List.nil_append]
    rw [List.take_append_of_le_length (by omega), pending, List.take_take, Nat.min_self]
  · rfl

theorem valid_push {chunk : List UInt8} : (p.push chunk).Valid := by
  have := length_expand (p := p) (n := chunk.length)
  simp only [Valid, push, setAt, List.length_append, List.length_take, List.length_drop]
  omega

theorem pending_push (hp : p.Valid) (chunk : List UInt8) :
    (p.push chunk).pending = p.pending ++ chunk := by
  have hlen : (p.pending ++ chunk).length = p.bufLen + chunk.length := by
    rw [List.length_append, length_pending hp]
  simp only [pending, push, setAt]
  rw [take_expand hp, ← hlen, List.take_left, pending]

/-! ## One iteration -/

/-- After the stream `h`, whose events so far are `es`, the buffer is enough to
    find the next ones, and the CRC errors are those of these events. -/
structure Sound (p : SlvrStreamParser) (h : List UInt8) (es : List Event) : Prop where
  valid : p.Valid
  resumes : Resumes greedyEvent h es p.pending
  crcErrors : p.crcErrors = es.count .crcError

namespace Sound

variable {h : List UInt8} {es : List Event} (hs : p.Sound h es)

include hs

/-- The first byte dropped, no event happening there. -/
theorem skip (hv : greedyEvent p.pending = .skip 1) : (p.discard 1).Sound h es where
  valid := valid_advance hs.valid (by
    have := (incremental_greedyEvent.skip hv).2.1
    rwa [length_pending hs.valid] at this)
  resumes := by
    have := hs.resumes.skip incremental_greedyEvent hv
    rwa [← pending_advance hs.valid] at this
  crcErrors := hs.crcErrors

/-- A run of bytes dropped, no event happening at any of them. -/
theorem skip_run {n : ℕ} (hn : n ≤ p.bufLen)
    (hv : ∀ i < n, greedyEvent (p.pending.drop i) = .skip 1) : (p.discard n).Sound h es where
  valid := valid_advance hs.valid hn
  resumes := by
    have := hs.resumes.skip_run incremental_greedyEvent hv
    rwa [← pending_advance hs.valid] at this
  crcErrors := hs.crcErrors

/-- What is taken is in the buffer. -/
theorem item_le {n : ℕ} {e : Event} (hv : greedyEvent p.pending = .item n e) : n ≤ p.bufLen := by
  have hlen := (incremental_greedyEvent.item hv).2.1
  rwa [length_pending hs.valid] at hlen

/-- The first byte dropped, a candidate failing its CRC there. -/
theorem crcError (hv : greedyEvent p.pending = .item 1 .crcError) :
    Sound { p.discard 1 with crcErrors := p.crcErrors + 1 } h (es ++ [.crcError]) where
  valid := valid_advance hs.valid (hs.item_le hv)
  resumes := by
    have := hs.resumes.take incremental_greedyEvent hv
    rwa [← pending_advance hs.valid] at this
  crcErrors := by simp [hs.crcErrors]

/-- The bytes of a frame removed. -/
theorem frame {n : ℕ} {f : Frame} (hv : greedyEvent p.pending = .item n (.frame f)) :
    (p.advance n).Sound h (es ++ [.frame f]) where
  valid := valid_advance hs.valid (hs.item_le hv)
  resumes := by
    have := hs.resumes.take incremental_greedyEvent hv
    rwa [← pending_advance hs.valid] at this
  crcErrors := by
    rw [List.count_append, ← hs.crcErrors]
    rfl

end Sound

/-- What an iteration does, with `n` bytes in the buffer at first, after the
    stream `h` with events `es`: it stops with no event left in the buffer, or
    shortens the buffer, passing the frame on if there is one. -/
def Outcome (h : List UInt8) (es : List Event) (n : ℕ) : Iteration → Prop
  | .stop p => p.Sound h es ∧ greedyEvents p.pending = []
  | .next p => p.bufLen < n ∧ ∃ es', p.Sound h (es ++ es') ∧ es'.filterMap Event.frame? = []
  | .frame p r => p.bufLen < n ∧ ∃ f, p.Sound h (es ++ [.frame f]) ∧ r = f.received

theorem Outcome.mono {h : List UInt8} {es : List Event} {m n : ℕ} {it : Iteration}
    (ho : Outcome h es m it) (hmn : m ≤ n) : Outcome h es n it := by
  cases it with
  | stop p => exact ho
  | next p => exact ⟨Nat.lt_of_lt_of_le ho.1 hmn, ho.2⟩
  | frame p r => exact ⟨Nat.lt_of_lt_of_le ho.1 hmn, ho.2⟩

/-- The shift and the bitwise or of the code put two bytes together. -/
theorem shiftLeft_or (hi lo : UInt8) : (hi.toNat <<< 8) ||| lo.toNat = ofBe16 hi lo := by
  rw [ofBe16, ← Nat.shiftLeft_add_eq_or_of_lt (i := 8) lo.toNat_lt, Nat.shiftLeft_eq]

theorem greedyEvent_frame {q : List UInt8} {f : Frame} (h : head q = .frame f) :
    greedyEvent q = .item f.bytes.length (.frame f) := by
  rw [greedyEvent, h]

/-- No event happens in fewer bytes than the shortest frame. -/
theorem greedyEvents_of_short {q : List UInt8} (hq : q.length < frameOverhead) :
    greedyEvents q = [] := by
  refine scan_items_eq_nil fun i n e he => ?_
  have hlong : frameOverhead ≤ candidateLength (head (q.drop i)) := by
    rw [greedyEvent] at he
    split at he
    · rename_i f hf
      rw [hf, candidateLength, f.length_bytes]
      omega
    · rename_i len hbad
      rw [hbad, candidateLength]
      omega
    · cases he
    · cases he
  have hfin : head (q.drop i) ≠ .incomplete := fun hinc => by
    rw [greedyEvent_eq_wait_iff.2 hinc] at he
    cases he
  have := (head_take hfin).1
  simp only [List.length_drop] at this
  omega

theorem greedyEvents_of_incomplete {q : List UInt8} (h : head q = .incomplete) :
    greedyEvents q = [] := by
  rw [greedyEvents, scan_wait (greedyEvent_eq_wait_iff.2 h)]

section

variable {h : List UInt8} {es : List Event}

theorem Outcome.of_skip (hs : p.Sound h es) (hpos : 0 < p.bufLen)
    (hv : greedyEvent p.pending = .skip 1) : Outcome h es p.bufLen (.next (p.discard 1)) :=
  ⟨Nat.sub_lt hpos Nat.one_pos, [], by simpa using hs.skip hv, rfl⟩

/-- A candidate with its payload and CRC in the buffer: the CRCs are compared. -/
theorem examine_checked {f : Frame} {c₁ c₂ : UInt8} {rest : List UInt8}
    (hbuf : p.buffer = magic ++ f.body ++ c₁ :: c₂ :: rest)
    (hlen : frameOverhead + f.payload.length ≤ p.bufLen) :
    p.examine = if [c₁, c₂] = be16 f.crc.toNat then
        .frame (p.advance (frameOverhead + f.payload.length)) f.received
      else .next { p.discard 1 with crcErrors := p.crcErrors + 1 } := by
  have hbody : (magic ++ f.body).length = 10 + f.payload.length := by
    simp [magic, Frame.body]
    omega
  have hbyte (i : ℕ) : p.byteAt i = (magic ++ f.body ++ c₁ :: c₂ :: rest).getD i 0 := by
    rw [byteAt, hbuf]
  have hversion : p.byteAt 4 = version1 := hbyte 4
  have hpayloadLen : ((p.byteAt 8).toNat <<< 8) ||| (p.byteAt 9).toNat = f.payload.length := by
    have hhi : p.byteAt 8 = UInt8.ofNat (f.payload.length / 256) := hbyte 8
    have hlo : p.byteAt 9 = UInt8.ofNat f.payload.length := hbyte 9
    rw [hhi, hlo, shiftLeft_or, ofBe16_be16 f.payload_lt]
  have hc₁ : p.byteAt (10 + f.payload.length) = c₁ := by
    rw [hbyte, ← hbody, List.getD_append_right _ _ _ _ (Nat.le_refl _)]
    simp
  have hc₂ : p.byteAt (11 + f.payload.length) = c₂ := by
    rw [hbyte, List.getD_append_right _ _ _ _ (by omega), hbody,
      show 11 + f.payload.length - (10 + f.payload.length) = 1 by omega]
    rfl
  have htake : p.buffer.take (10 + f.payload.length) = magic ++ f.body := by
    rw [hbuf, ← hbody, List.take_left]
  have hactual : slvrCrc16 ((magic ++ f.body).drop 4) = f.crc.toNat := slvrCrc16_eq _
  -- Two bytes are equal to the CRC if they are so as a number.
  have hiff : ofBe16 c₁ c₂ = f.crc.toNat ↔ [c₁, c₂] = be16 f.crc.toNat := by
    rw [← be16_ofBe16 c₁ c₂, be16_inj (ofBe16_lt _ _) f.crc.toNat_lt]
  have hwhole : ¬p.bufLen < 10 := by
    rw [frameOverhead] at hlen
    omega
  rw [examine, if_neg hwhole, if_neg (not_not.2 hversion)]
  simp only [hpayloadLen, if_neg (Nat.not_lt.2 f.payload_le), if_neg (Nat.not_lt.2 hlen), hc₁, hc₂,
    htake, hactual, shiftLeft_or, hiff]
  simp only [hbyte]
  rfl

/-- A candidate is examined as the format has it. -/
theorem examine_outcome (hs : p.Sound h es) (hm : magic <+: p.pending) :
    Outcome h es p.bufLen p.examine := by
  have hlen := length_pending hs.valid
  have hbuf : p.buffer = p.pending ++ p.buffer.drop p.bufLen := (List.take_append_drop _ _).symm
  -- Too few bytes to tell: the parser waits, and the scan is at its end.
  by_cases hshort : p.bufLen < 10
  · rw [examine, if_pos hshort]
    exact ⟨hs, greedyEvents_of_short (by rw [hlen, frameOverhead]; omega)⟩
  generalize p.buffer.drop p.bufLen = stale at hbuf
  have hshape := shape_head p.pending
  obtain ⟨t, ht⟩ := hm
  obtain ⟨b, rest, rfl⟩ : ∃ b rest, t = b :: rest := by
    cases t with
    | nil => rw [← hlen, ← ht] at hshort; simp [magic] at hshort
    | cons b rest => exact ⟨b, rest, rfl⟩
  have hb : p.byteAt 4 = b := by
    rw [byteAt, hbuf, ← ht]
    rfl
  have hpos : 0 < p.bufLen := by omega
  -- A version that is not known is a mismatch at the fifth byte.
  by_cases hv : b = version1
  swap
  · have hhead : head p.pending = .mismatch 4 := by
      rw [← ht]
      exact head_of_mismatch (by simp [mismatch, magic, preamble, hv])
    rw [examine, if_neg hshort, hb, if_pos hv]
    exact .of_skip hs hpos (by rw [greedyEvent, hhead])
  subst hv
  generalize hk : head p.pending = k at hshape
  generalize hq : p.pending = q at hshape hbuf ht hlen
  -- The preamble is whole: the verdicts of the scan are those left.
  cases hshape with
  | mismatch hmis =>
    rw [← ht] at hmis
    simp [mismatch, magic, preamble] at hmis
  | short _ hlt => omega
  | @tooLong type flags sequence hi lo _ hlong =>
    have hhi : p.byteAt 8 = hi := by rw [byteAt, hbuf]; rfl
    have hlo : p.byteAt 9 = lo := by rw [byteAt, hbuf]; rfl
    rw [examine, if_neg hshort, hb, if_neg (not_not.2 rfl)]
    simp only [hhi, hlo, shiftLeft_or, if_pos hlong]
    exact .of_skip hs hpos (by rw [greedyEvent, hk])
  | @unfinished type flags sequence hi lo _ hle hlt =>
    have hhi : p.byteAt 8 = hi := by rw [byteAt, hbuf]; rfl
    have hlo : p.byteAt 9 = lo := by rw [byteAt, hbuf]; rfl
    have hwait : p.bufLen < frameOverhead + ofBe16 hi lo := by
      rw [← hlen, frameOverhead]
      simp [magic]
      omega
    rw [examine, if_neg hshort, hb, if_neg (not_not.2 rfl)]
    simp only [hhi, hlo, shiftLeft_or, if_neg (Nat.not_lt.2 hle), if_pos hwait]
    exact ⟨hs, greedyEvents_of_incomplete hk⟩
  | checked f crc rest' hcrc =>
    obtain ⟨c₁, c₂, rfl⟩ := List.length_eq_two.1 hcrc
    have hsplit : p.buffer = magic ++ f.body ++ c₁ :: c₂ :: (rest' ++ stale) := by
      rw [hbuf]
      simp
    have hfits : frameOverhead + f.payload.length ≤ p.bufLen := by
      rw [← hlen, frameOverhead]
      simp [magic, Frame.body]
      omega
    rw [examine_checked hsplit hfits]
    rw [checkCrc] at hk
    by_cases hok : [c₁, c₂] = be16 f.crc.toNat
    · rw [if_pos hok] at hk ⊢
      have hv := hs.frame (greedyEvent_frame hk)
      rw [f.length_bytes] at hv
      exact ⟨Nat.sub_lt hpos (by rw [frameOverhead]; omega), f, hv, rfl⟩
    · rw [if_neg hok] at hk ⊢
      exact ⟨Nat.sub_lt hpos Nat.one_pos, [.crcError],
        hs.crcError (by rw [greedyEvent, hk]), rfl⟩

/-- The bytes compared with the magic are in the buffer. -/
theorem take_drop_buffer {i : ℕ} (hi : i < p.bufLen - 3) :
    (p.buffer.drop i).take 4 = (p.pending.drop i).take 4 := by
  rw [pending, List.drop_take, List.take_take, Nat.min_eq_left (by omega)]

theorem skip_of_no_magic (hp : p.Valid) {i : ℕ} (hi : i < p.bufLen - 3)
    (hm : (p.buffer.drop i).take 4 ≠ magic) : greedyEvent (p.pending.drop i) = .skip 1 := by
  rw [take_drop_buffer hi] at hm
  have hlen : magic.length ≤ (p.pending.drop i).length := by
    rw [List.length_drop, length_pending hp]
    simp only [magic, List.length_cons, List.length_nil]
    omega
  cases hmis : mismatch (p.pending.drop i) magic with
  | none =>
    have := (mismatch_eq_none_iff hlen).1 hmis
    exact absurd (List.prefix_iff_eq_take.1 this).symm hm
  | some k => rw [greedyEvent, head_of_mismatch (mismatch_append_right hmis _)]

/-- The magic is found where it first is. -/
theorem findMagic_eq_some {i : ℕ} (hp : p.Valid) (hi : p.findMagic = some i) :
    i ≤ p.bufLen ∧ magic <+: p.pending.drop i ∧
      ∀ j < i, greedyEvent (p.pending.drop j) = .skip 1 := by
  obtain ⟨hmagic, hmem, hfirst⟩ := List.find?_range_eq_some.1 hi
  have hlt := List.mem_range.1 hmem
  refine ⟨by omega, ?_, fun j hj => skip_of_no_magic hp (by omega) ?_⟩
  · rw [decide_eq_true_iff, take_drop_buffer hlt] at hmagic
    exact hmagic ▸ List.take_prefix _ _
  · simpa using hfirst j hj

theorem findMagic_eq_none (hp : p.Valid) (hi : p.findMagic = none) :
    ∀ j < p.bufLen - 3, greedyEvent (p.pending.drop j) = .skip 1 := fun j hj =>
  skip_of_no_magic hp hj (by simpa using List.find?_range_eq_none.1 hi j hj)

/-- An iteration of the loop. -/
theorem iterate_outcome (hs : p.Sound h es) (hlen : frameOverhead ≤ p.bufLen) :
    Outcome h es p.bufLen p.iterate := by
  rw [iterate]
  cases hm : p.findMagic with
  | none =>
    have hn : p.bufLen - min 3 p.bufLen = p.bufLen - 3 := by omega
    have hs' := hs.skip_run (n := p.bufLen - 3) (by omega) (findMagic_eq_none hs.valid hm)
    rw [hn]
    refine ⟨hs', greedyEvents_of_short ?_⟩
    rw [length_pending hs'.valid]
    simp only [discard, advance, frameOverhead] at hlen ⊢
    omega
  | some i =>
    obtain ⟨hle, hmagic, hskip⟩ := findMagic_eq_some hs.valid hm
    by_cases hi : 0 < i
    · have hs' := hs.skip_run hle hskip
      have hout := examine_outcome hs' (by rwa [← pending_advance hs.valid] at hmagic)
      simp only [if_pos hi]
      exact hout.mono (Nat.sub_le _ _)
    · obtain rfl : i = 0 := by omega
      exact examine_outcome hs hmagic

/-! ## The loop -/

/-- What an iteration keeps, with `n` bytes in the buffer and the frames `passed` at first:
    `Q` holds when it stops, and else `I` does, in a shorter buffer. -/
def Keeps (I Q : SlvrStreamParser → List Received → Prop) (n : ℕ)
    (passed : List Received) : Iteration → Prop
  | .stop p => Q p passed
  | .next p => p.bufLen < n ∧ I p passed
  | .frame p r => p.bufLen < n ∧ I p (passed ++ [r])

section

variable (throws : List Received → Received → Bool) {passed : List Received} {n : ℕ}

/-- What every iteration keeps is kept up to an exception, and the loop stops otherwise,
    before its fuel is spent. -/
theorem loopWith_rule (I Q : SlvrStreamParser → List Received → Prop)
    (hshort : ∀ p passed, I p passed → p.bufLen < frameOverhead → Q p passed)
    (hstep : ∀ p passed, I p passed → frameOverhead ≤ p.bufLen →
      Keeps I Q p.bufLen passed p.iterate)
    (hI : I p passed) (hn : p.bufLen ≤ n) :
    if (loopWith throws n p passed).threw then
      I (loopWith throws n p passed).parser (loopWith throws n p passed).passed
    else Q (loopWith throws n p passed).parser (loopWith throws n p passed).passed := by
  induction n generalizing p passed with
  | zero => exact hshort p passed hI (by rw [frameOverhead]; omega)
  | succ n ih =>
    rw [loopWith]
    by_cases hlt : p.bufLen < frameOverhead
    · rw [if_pos hlt]
      exact hshort p passed hI hlt
    rw [if_neg hlt]
    have hkeeps := hstep p passed hI (Nat.not_lt.1 hlt)
    cases hit : p.iterate with
    | stop q =>
      rw [hit] at hkeeps
      exact hkeeps
    | next q =>
      rw [hit] at hkeeps
      exact ih hkeeps.2 (by have := hkeeps.1; omega)
    | frame q r =>
      rw [hit] at hkeeps
      -- The callback is called on the parser with the frame removed.
      by_cases hthrows : throws passed r
      · simp only [if_pos hthrows]
        exact hkeeps.2
      · simp only [if_neg hthrows]
        exact ih hkeeps.2 (by have := hkeeps.1; omega)

/-- A callback that never throws is the one of `loop`. -/
theorem loopWith_never :
    loopWith (fun _ _ => false) n p passed = ⟨(loop n p).1, passed ++ (loop n p).2, false⟩ := by
  induction n generalizing p passed with
  | zero => simp [loopWith, loop]
  | succ n ih =>
    rw [loopWith, loop]
    by_cases hlt : p.bufLen < frameOverhead
    · simp [hlt]
    · rw [if_neg hlt, if_neg hlt]
      cases p.iterate with
      | stop q => simp
      | next q => exact ih
      | frame q r => simp [ih]

theorem feedWith_never (chunk : List UInt8) : feedWith (fun _ _ => false) p passed chunk =
    ⟨(p.feed chunk).1, passed ++ (p.feed chunk).2, false⟩ := by
  rw [feedWith, feed]
  split
  · simp
  · exact loopWith_never

theorem feedAllWith_never (chunks : List (List UInt8)) :
    feedAllWith (fun _ _ => false) ⟨p, passed, false⟩ chunks =
      ⟨(p.feedAll chunks).1, passed ++ (p.feedAll chunks).2, false⟩ := by
  induction chunks generalizing p passed with
  | nil => simp [feedAllWith, feedAll]
  | cons chunk chunks ih =>
    rw [feedAllWith, List.foldl_cons, feedWith_never]
    simpa [feedAll, feedAllWith] using @ih (p.feed chunk).1 (passed ++ (p.feed chunk).2)

/-- What every iteration keeps holds when the loop stops. -/
theorem loop_rule (I Q : SlvrStreamParser → List Received → Prop)
    (hshort : ∀ p passed, I p passed → p.bufLen < frameOverhead → Q p passed)
    (hstep : ∀ p passed, I p passed → frameOverhead ≤ p.bufLen →
      Keeps I Q p.bufLen passed p.iterate)
    (hI : I p passed) (hn : p.bufLen ≤ n) : Q (loop n p).1 (passed ++ (loop n p).2) := by
  simpa [loopWith_never] using
    loopWith_rule (fun _ _ => false) I Q hshort hstep hI hn

end

/-- A run of the code after the stream `h` with events `es`, ending in `r`: the
    frames passed on are those of the further events, and no event is left in
    the buffer. -/
def Ran (h : List UInt8) (es : List Event) (r : SlvrStreamParser × List Received) : Prop :=
  ∃ es', r.1.Sound h (es ++ es') ∧ r.2 = (es'.filterMap Event.frame?).map Frame.received ∧
    greedyEvents r.1.pending = []

/-- The frames of some events, as they are passed on. -/
def passedOn (es : List Event) : List Received :=
  (es.filterMap Event.frame?).map Frame.received

/-- An iteration passes the frame of its event on. -/
theorem keeps_iterate {passed : List Received}
    (hs : ∃ es', p.Sound h (es ++ es') ∧ passed = passedOn es') (hlen : frameOverhead ≤ p.bufLen) :
    Keeps (fun p passed => ∃ es', p.Sound h (es ++ es') ∧ passed = passedOn es')
      (fun p passed => Ran h es (p, passed)) p.bufLen passed p.iterate := by
  obtain ⟨es', hs, rfl⟩ := hs
  have hout := iterate_outcome hs hlen
  cases hit : p.iterate with
  | stop q =>
    rw [hit] at hout
    exact ⟨es', hout.1, rfl, hout.2⟩
  | next q =>
    rw [hit] at hout
    obtain ⟨hlt, es₁, hs₁, hnone⟩ := hout
    exact ⟨hlt, es' ++ es₁, by rwa [← List.append_assoc], by simp [passedOn, hnone]⟩
  | frame q r =>
    rw [hit] at hout
    obtain ⟨hlt, f, hs₁, rfl⟩ := hout
    exact ⟨hlt, es' ++ [.frame f], by rwa [← List.append_assoc], by simp [passedOn, Event.frame?]⟩

/-- Too few bytes for a frame are no event. -/
theorem ran_short {passed : List Received}
    (hs : ∃ es', p.Sound h (es ++ es') ∧ passed = passedOn es')
    (hlt : p.bufLen < frameOverhead) : Ran h es (p, passed) := by
  obtain ⟨es', hs, hpassed⟩ := hs
  exact ⟨es', hs, hpassed, greedyEvents_of_short (by rwa [length_pending hs.valid])⟩

/-- The loop stops with no event left. -/
theorem ran_loop {n : ℕ} (hs : p.Sound h es) (hn : p.bufLen ≤ n) : Ran h es (loop n p) := by
  have hinit : ∃ es', p.Sound h (es ++ es') ∧ [] = passedOn es' := ⟨[], by simpa using hs, rfl⟩
  exact loop_rule (fun p passed => ∃ es', p.Sound h (es ++ es') ∧ passed = passedOn es')
    (fun p passed => Ran h es (p, passed)) (fun _ _ => ran_short) (fun _ _ => keeps_iterate)
    hinit hn

/-- Feeding a chunk to a parser with no event left in its buffer. -/
theorem ran_feed (hs : p.Sound h es) (hquiet : greedyEvents p.pending = [])
    (chunk : List UInt8) : Ran (h ++ chunk) es (p.feed chunk) := by
  rw [feed]
  by_cases hc : chunk = []
  · rw [if_pos hc]
    exact ⟨[], by simpa [hc] using hs, rfl, hquiet⟩
  rw [if_neg hc]
  refine ran_loop ⟨valid_push, ?_, hs.crcErrors⟩ (Nat.le_refl _)
  rw [pending_push hs.valid]
  exact hs.resumes.append chunk

theorem ran_feedAll (hs : p.Sound h es) (hquiet : greedyEvents p.pending = [])
    (chunks : List (List UInt8)) : Ran (h ++ chunks.flatten) es (p.feedAll chunks) := by
  induction chunks generalizing p h es with
  | nil => exact ⟨[], by simpa [feedAll] using hs, rfl, hquiet⟩
  | cons chunk chunks ih =>
    obtain ⟨es₁, hs₁, hrec₁, hquiet₁⟩ := ran_feed hs hquiet chunk
    obtain ⟨es₂, hs₂, hrec₂, hquiet₂⟩ := ih hs₁ hquiet₁
    refine ⟨es₁ ++ es₂, ?_, ?_, hquiet₂⟩
    · simpa [feedAll] using hs₂
    · simp [feedAll, hrec₁, hrec₂]

end

theorem sound_new : new.Sound [] [] where
  valid := Nat.zero_le _
  resumes := by simpa [pending, new] using Resumes.nil
  crcErrors := rfl

/-- Feeding a fresh parser: the frames and the CRC errors are those of the
    greedy scan of the stream, whichever way it is cut. -/
theorem feedAll_eq (chunks : List (List UInt8)) :
    (new.feedAll chunks).2 = (greedy chunks.flatten).map Frame.received ∧
      (new.feedAll chunks).1.crcErrors = (greedyEvents chunks.flatten).count .crcError := by
  obtain ⟨es, hs, hrec, hquiet⟩ :=
    ran_feedAll sound_new (by simp [pending, new, greedyEvents]) chunks
  have hes : greedyEvents chunks.flatten = es := by
    simpa [greedyEvents] using hs.resumes.items_eq hquiet
  rw [greedy_eq_filterMap, hes]
  exact ⟨hrec, by simpa using hs.crcErrors⟩

/-- Two ways of cutting a stream give the same frames: those of its greedy scan. -/
theorem feedAll_cuts {s : List UInt8} {chunks₁ chunks₂ : List (List UInt8)}
    (h₁ : chunks₁.flatten = s) (h₂ : chunks₂.flatten = s) :
    (new.feedAll chunks₁).2 = (new.feedAll chunks₂).2 ∧
      (new.feedAll chunks₁).2 = (greedy s).map Frame.received := by
  rw [(feedAll_eq chunks₁).1, (feedAll_eq chunks₂).1, h₁, h₂]
  exact ⟨rfl, rfl⟩

/-- A frame cut inside its magic, or inside its CRC. -/
theorem feedAll_cuts_ping :
    (new.feedAll [pingFrame.bytes.take 2, pingFrame.bytes.drop 2]).2 =
        (new.feedAll [pingFrame.bytes.take 11, pingFrame.bytes.drop 11]).2 ∧
      (new.feedAll [pingFrame.bytes.take 2, pingFrame.bytes.drop 2]).2 =
        (greedy pingFrame.bytes).map Frame.received :=
  feedAll_cuts (by simp) (by simp)

/-! ## Callbacks that throw -/

section

variable (throws : List Received → Received → Bool) {h : List UInt8} {c : Call}

/-- After the stream `h`, the frames passed to the callback are those of the events so far,
    and all of them when the last `feed` completed normally. -/
def Call.Follows (c : Call) (h : List UInt8) : Prop :=
  ∃ es, c.parser.Sound h es ∧ c.passed = passedOn es ∧
    (c.threw = false → greedyEvents c.parser.pending = [])

theorem follows_new : Call.Follows ⟨new, [], false⟩ [] :=
  ⟨[], sound_new, rfl, fun _ => by simp [pending, new, greedyEvents]⟩

/-- An exception leaves in the buffer what is not passed on yet, for the next chunk. -/
theorem follows_feedWith (hc : c.Follows h) {chunk : List UInt8} (hne : chunk ≠ []) :
    (feedWith throws c.parser c.passed chunk).Follows (h ++ chunk) := by
  obtain ⟨es, hs, hpassed, -⟩ := hc
  have hpush : (c.parser.push chunk).Sound (h ++ chunk) es := by
    refine ⟨valid_push, ?_, hs.crcErrors⟩
    rw [pending_push hs.valid]
    exact hs.resumes.append chunk
  have hrule := loopWith_rule throws
    (fun p passed => ∃ es', p.Sound (h ++ chunk) ([] ++ es') ∧ passed = passedOn es')
    (fun p passed => Ran (h ++ chunk) [] (p, passed)) (fun _ _ => ran_short)
    (fun _ _ => keeps_iterate) ⟨es, hpush, hpassed⟩ (Nat.le_refl _)
  rw [feedWith, if_neg hne]
  generalize loopWith throws _ _ _ = c' at hrule
  split at hrule
  · rename_i hthrew
    obtain ⟨es', hs', hpassed'⟩ := hrule
    exact ⟨es', hs', hpassed', fun h => absurd hthrew (by simp [h])⟩
  · obtain ⟨es', hs', hpassed', hquiet⟩ := hrule
    exact ⟨es', hs', hpassed', fun _ => hquiet⟩

theorem follows_feedAllWith (hc : c.Follows h) {chunks : List (List UInt8)}
    (hne : ∀ chunk ∈ chunks, chunk ≠ []) :
    (feedAllWith throws c chunks).Follows (h ++ chunks.flatten) := by
  induction chunks generalizing c h with
  | nil => simpa [feedAllWith] using hc
  | cons chunk chunks ih =>
    have hfeed := follows_feedWith throws hc (hne chunk List.mem_cons_self)
    simpa [feedAllWith] using ih hfeed fun d hd => hne d (List.mem_cons_of_mem _ hd)

/-- An exception of the callback loses nothing: when the last `feed` completes normally,
    the frames passed are those passed to a callback that never throws. -/
theorem passed_feedAllWith {chunks : List (List UInt8)} (hne : ∀ chunk ∈ chunks, chunk ≠ [])
    (hlast : (feedAllWith throws ⟨new, [], false⟩ chunks).threw = false) :
    (feedAllWith throws ⟨new, [], false⟩ chunks).passed =
      (feedAllWith (fun _ _ => false) ⟨new, [], false⟩ chunks).passed := by
  obtain ⟨es, hs, hpassed, hquiet⟩ := follows_feedAllWith throws follows_new hne
  have hes : greedyEvents chunks.flatten = es := by
    simpa [greedyEvents] using hs.resumes.items_eq (hquiet hlast)
  rw [hpassed, feedAllWith_never, (feedAll_eq chunks).1, greedy_eq_filterMap, hes]
  rfl

end

/-- A callback that throws on the first of two frames in a chunk: the second one comes with
    the next chunk. -/
theorem passed_feedAllWith_pings :
    (feedAllWith (fun passed _ => passed = []) ⟨new, [], false⟩
        [pingFrame.bytes ++ pingFrame.bytes, [0x53]]).passed =
      (feedAllWith (fun _ _ => false) ⟨new, [], false⟩
        [pingFrame.bytes ++ pingFrame.bytes, [0x53]]).passed :=
  passed_feedAllWith _ (by decide) (by decide +kernel)

end SlvrStreamParser

end SliverOS.Browser
