import SliverOS.Protocol.Crc16
import SliverOS.Streams.Scan

/-!
# The wire format of the frames

A frame on the wire is the magic `"SLVR"`, the version, the type, flags and
sequence bytes, the length of the payload (big-endian), the payload, and the
CRC-16 of all but the magic (big-endian): `Frame.bytes`.

`head` judges the head of a stream of bytes: it starts with a frame, or nothing
starts there — and why —, or it takes more bytes to tell. Starting with the
frame `f` is starting with the bytes of `f` (`head_eq_frame_iff`), and more
bytes do not change what `head` tells once it tells something (`head_append`).

This is the format itself, which neither parser of the two sides follows as it
stands: the firmware keeps the bytes of the candidate it is reading, and the
browser a buffer. `SliverOS.Protocol.Firmware` and `SliverOS.Protocol.Browser`
are their code.
-/

namespace SliverOS.Wire

open Streams

/-! ## Big-endian words -/

/-- The two bytes of a 16-bit number, the high one first. -/
def be16 (n : ℕ) : List UInt8 := [UInt8.ofNat (n / 256), UInt8.ofNat n]

/-- The number of two bytes, the high one first. -/
def ofBe16 (hi lo : UInt8) : ℕ := hi.toNat * 256 + lo.toNat

@[simp] theorem length_be16 (n : ℕ) : (be16 n).length = 2 := rfl

theorem ofBe16_lt (hi lo : UInt8) : ofBe16 hi lo < 2 ^ 16 := by
  have := hi.toNat_lt
  have := lo.toNat_lt
  simp only [ofBe16]
  omega

@[simp] theorem be16_ofBe16 (hi lo : UInt8) : be16 (ofBe16 hi lo) = [hi, lo] := by
  have hdiv : ofBe16 hi lo / 256 = hi.toNat := by
    have := lo.toNat_lt
    simp only [ofBe16]
    omega
  have hlo : UInt8.ofNat (ofBe16 hi lo) = lo := by
    apply UInt8.toNat_inj.1
    have := lo.toNat_lt
    simp only [ofBe16, UInt8.toNat_ofNat']
    omega
  simp [be16, hdiv, hlo]

theorem ofBe16_be16 {n : ℕ} (h : n < 2 ^ 16) :
    ofBe16 (UInt8.ofNat (n / 256)) (UInt8.ofNat n) = n := by
  simp only [ofBe16, UInt8.toNat_ofNat']
  omega

theorem be16_inj {m n : ℕ} (hm : m < 2 ^ 16) (hn : n < 2 ^ 16) : be16 m = be16 n ↔ m = n := by
  refine ⟨fun h => ?_, fun h => by rw [h]⟩
  simp only [be16, List.cons.injEq, and_true] at h
  rw [← ofBe16_be16 hm, ← ofBe16_be16 hn, h.1, h.2]

/-! ## Frames -/

/-- `SLVR_MAGIC_0` to `SLVR_MAGIC_3`: `"SLVR"`. -/
def magic : List UInt8 := [0x53, 0x4C, 0x56, 0x52]

/-- `SLVR_VERSION_1`. -/
def version1 : UInt8 := 0x01

/-- `SLVR_MAX_PAYLOAD_LEN`. -/
def maxPayloadLen : ℕ := 512

/-- `SLVR_FRAME_OVERHEAD`: the header and the CRC. -/
def frameOverhead : ℕ := 12

/-- A frame of version 1, with a payload that fits. -/
structure Frame where
  type : UInt8
  flags : UInt8
  sequence : UInt8
  payload : List UInt8
  payload_le : payload.length ≤ maxPayloadLen
  deriving DecidableEq

/-- What the receiver of a frame is given. -/
structure Received where
  version : UInt8
  type : UInt8
  flags : UInt8
  sequence : UInt8
  length : ℕ
  payload : List UInt8
  crc : ℕ
  deriving DecidableEq

namespace Frame

variable (f : Frame)

/-- The bytes protected by the CRC: the header but for the magic, and the payload. -/
def body : List UInt8 :=
  [version1, f.type, f.flags, f.sequence] ++ be16 f.payload.length ++ f.payload

/-- The CRC of a frame. -/
def crc : UInt16 := Firmware.slvrCrc16 f.body

/-- A frame on the wire. -/
def bytes : List UInt8 := magic ++ f.body ++ be16 f.crc.toNat

/-- What the receiver of the frame should be given. -/
def received : Received where
  version := version1
  type := f.type
  flags := f.flags
  sequence := f.sequence
  length := f.payload.length
  payload := f.payload
  crc := f.crc.toNat

theorem length_bytes : f.bytes.length = frameOverhead + f.payload.length := by
  simp [bytes, body, magic, frameOverhead]
  omega

theorem payload_lt : f.payload.length < 2 ^ 16 := by
  have := f.payload_le
  simp only [maxPayloadLen] at this
  omega

end Frame

/-- A `SLVR_CMD_PING`, the shortest of frames. -/
def pingFrame : Frame := ⟨0x8D, 0, 7, [], Nat.zero_le _⟩

/-! ## The head of a stream -/

/-- The first place where two lists differ, as far as both go. -/
def mismatch : List UInt8 → List UInt8 → Option ℕ
  | x :: xs, y :: ys => if x = y then (mismatch xs ys).map (· + 1) else some 0
  | _, _ => none

/-- What every frame starts with: the magic and the version. -/
def preamble : List UInt8 := magic ++ [version1]

/-- What the head of a stream is: not the preamble, from the byte `k` on; a
    frame too long; a frame of payload length `len` but for its CRC; a frame;
    or too few bytes to tell. -/
inductive Head
  | mismatch (k : ℕ)
  | tooLong
  | badCrc (len : ℕ)
  | frame (f : Frame)
  | incomplete
  deriving DecidableEq

/-- The head is a frame but for its CRC. -/
def Head.isBadCrc : Head → Bool
  | .badCrc _ => true
  | _ => false

/-- A frame followed by two bytes of CRC, its own or not. -/
def checkCrc (f : Frame) (crc : List UInt8) : Head :=
  if crc = be16 f.crc.toNat then .frame f else .badCrc f.payload.length

/-- The judgement of a head after its preamble. -/
def judge (type flags sequence hi lo : UInt8) (rest : List UInt8) : Head :=
  if h : ofBe16 hi lo ≤ maxPayloadLen then
    if rest.length < ofBe16 hi lo + 2 then .incomplete
    else
      checkCrc ⟨type, flags, sequence, rest.take (ofBe16 hi lo),
        Nat.le_trans (List.length_take_le _ _) h⟩ ((rest.drop (ofBe16 hi lo)).take 2)
  else .tooLong

/-- The head of a stream. -/
def head (s : List UInt8) : Head :=
  match mismatch s preamble with
  | some k => .mismatch k
  | none =>
    match s with
    | _ :: _ :: _ :: _ :: _ :: type :: flags :: sequence :: hi :: lo :: rest =>
      judge type flags sequence hi lo rest
    | _ => .incomplete

@[simp] theorem mismatch_nil (s : List UInt8) : mismatch s [] = none := by cases s <;> rfl

/-- A mismatch stays one when more bytes come. -/
theorem mismatch_append {s p : List UInt8} {k : ℕ} (h : mismatch s p = some k) (t : List UInt8) :
    mismatch (s ++ t) p = some k := by
  induction s generalizing p k with
  | nil => simp [mismatch] at h
  | cons x s ih =>
    cases p with
    | nil => simp at h
    | cons y p =>
      simp only [mismatch, List.cons_append] at h ⊢
      split at h
      · obtain ⟨k, hk, rfl⟩ := Option.map_eq_some_iff.1 h
        simp [*, ih hk]
      · simp [*]

/-- Neither does it depend on what comes after in the other list. -/
theorem mismatch_append_right {s p : List UInt8} {k : ℕ} (h : mismatch s p = some k)
    (t : List UInt8) : mismatch s (p ++ t) = some k := by
  induction s generalizing p k with
  | nil => simp [mismatch] at h
  | cons x s ih =>
    cases p with
    | nil => simp at h
    | cons y p =>
      simp only [mismatch, List.cons_append] at h ⊢
      split at h
      · obtain ⟨k, hk, rfl⟩ := Option.map_eq_some_iff.1 h
        simp [*, ih hk]
      · simp [*]

/-- A list that does not differ from a shorter one starts with it. -/
theorem mismatch_eq_none_iff {s p : List UInt8} (h : p.length ≤ s.length) :
    mismatch s p = none ↔ p <+: s := by
  induction p generalizing s with
  | nil => simp
  | cons y p ih =>
    cases s with
    | nil => simp at h
    | cons x s =>
      simp only [mismatch, List.cons_prefix_cons]
      split
      · rename_i hxy
        simp [hxy, ih (by simpa using h)]
      · rename_i hxy
        simp [Ne.symm hxy]

theorem lt_of_mismatch {s p : List UInt8} {k : ℕ} (h : mismatch s p = some k) :
    k < s.length ∧ k < p.length := by
  induction s generalizing p k with
  | nil => simp [mismatch] at h
  | cons x s ih =>
    cases p with
    | nil => simp at h
    | cons y p =>
      simp only [mismatch] at h
      split at h
      · obtain ⟨k, hk, rfl⟩ := Option.map_eq_some_iff.1 h
        have := ih hk
        simp only [List.length_cons]
        omega
      · obtain rfl := Option.some.inj h
        simp

theorem head_of_mismatch {s : List UInt8} {k : ℕ} (h : mismatch s preamble = some k) :
    head s = .mismatch k := by
  simp [head, h]

/-- The head of a stream starting with a header. -/
theorem head_header (type flags sequence hi lo : UInt8) (rest : List UInt8) :
    head (magic ++ version1 :: type :: flags :: sequence :: hi :: lo :: rest) =
      judge type flags sequence hi lo rest := by
  rfl

/-- The head of a stream starting with a frame, up to its CRC. -/
theorem head_body (f : Frame) {crc : List UInt8} (hcrc : crc.length = 2) (rest : List UInt8) :
    head (magic ++ f.body ++ crc ++ rest) = checkCrc f crc := by
  have hlen : ofBe16 (UInt8.ofNat (f.payload.length / 256)) (UInt8.ofNat f.payload.length) =
      f.payload.length := ofBe16_be16 f.payload_lt
  have hshape : magic ++ f.body ++ crc ++ rest = magic ++ version1 :: f.type :: f.flags ::
      f.sequence :: UInt8.ofNat (f.payload.length / 256) :: UInt8.ofNat f.payload.length ::
        (f.payload ++ (crc ++ rest)) := by
    simp [Frame.body, be16]
  have hlt : ¬(f.payload ++ (crc ++ rest)).length < f.payload.length + 2 := by
    rw [List.length_append, List.length_append, hcrc]
    omega
  rw [hshape, head_header, judge]
  simp only [hlen, f.payload_le, dite_true, hlt, if_false]
  simp [hcrc]

/-- The shapes of the streams, by the judgement of their head. -/
inductive Shape : List UInt8 → Head → Prop
  | mismatch {s : List UInt8} {k : ℕ} (h : mismatch s preamble = some k) : Shape s (.mismatch k)
  | short {s : List UInt8} (h : mismatch s preamble = none) (hlt : s.length < 10) :
    Shape s .incomplete
  | tooLong (type flags sequence : UInt8) {hi lo : UInt8} (rest : List UInt8)
    (h : maxPayloadLen < ofBe16 hi lo) :
    Shape (magic ++ version1 :: type :: flags :: sequence :: hi :: lo :: rest) .tooLong
  | unfinished (type flags sequence hi lo : UInt8) {rest : List UInt8}
    (h : ofBe16 hi lo ≤ maxPayloadLen) (hlt : rest.length < ofBe16 hi lo + 2) :
    Shape (magic ++ version1 :: type :: flags :: sequence :: hi :: lo :: rest) .incomplete
  | checked (f : Frame) (crc rest : List UInt8) (hcrc : crc.length = 2) :
    Shape (magic ++ f.body ++ crc ++ rest) (checkCrc f crc)

theorem Shape.head_eq {s : List UInt8} {h : Head} (hs : Shape s h) : head s = h := by
  cases hs with
  | mismatch h => exact head_of_mismatch h
  | @short s h hlt =>
    simp only [head, h]
    match s with
    | _ :: _ :: _ :: _ :: _ :: _ :: _ :: _ :: _ :: _ :: _ => simp at hlt; omega
    | [] | [_] | [_, _] | [_, _, _] | [_, _, _, _] | [_, _, _, _, _] | [_, _, _, _, _, _]
    | [_, _, _, _, _, _, _] | [_, _, _, _, _, _, _, _] | [_, _, _, _, _, _, _, _, _] => rfl
  | tooLong type flags sequence rest h =>
    rw [head_header, judge]
    simp [Nat.not_le.2 h]
  | unfinished type flags sequence hi lo h hlt =>
    rw [head_header, judge]
    simp [h, hlt]
  | checked f crc rest hcrc => exact head_body f hcrc rest

/-- The first ten bytes of a stream. -/
theorem exists_header {s : List UInt8} (h : 10 ≤ s.length) :
    ∃ b₀ b₁ b₂ b₃ b₄ type flags sequence hi lo rest,
      s = b₀ :: b₁ :: b₂ :: b₃ :: b₄ :: type :: flags :: sequence :: hi :: lo :: rest := by
  match s with
  | b₀ :: b₁ :: b₂ :: b₃ :: b₄ :: b₅ :: b₆ :: b₇ :: b₈ :: b₉ :: rest =>
    exact ⟨b₀, b₁, b₂, b₃, b₄, b₅, b₆, b₇, b₈, b₉, rest, rfl⟩
  | [] | [_] | [_, _] | [_, _, _] | [_, _, _, _] | [_, _, _, _, _] | [_, _, _, _, _, _]
  | [_, _, _, _, _, _, _] | [_, _, _, _, _, _, _, _] | [_, _, _, _, _, _, _, _, _] =>
    simp at h

/-- Every stream has the shape its head is judged by. -/
theorem shape_head (s : List UInt8) : Shape s (head s) := by
  cases hm : mismatch s preamble with
  | some k => exact head_of_mismatch hm ▸ .mismatch hm
  | none =>
    by_cases hlt : s.length < 10
    · exact (Shape.short hm hlt).head_eq ▸ .short hm hlt
    obtain ⟨b₀, b₁, b₂, b₃, b₄, type, flags, sequence, hi, lo, rest, rfl⟩ :=
      exists_header (Nat.not_lt.1 hlt)
    obtain ⟨t, ht⟩ := (mismatch_eq_none_iff (by simp [preamble, magic])).1 hm
    simp only [preamble, magic, List.cons_append, List.nil_append, List.cons.injEq] at ht
    obtain ⟨rfl, rfl, rfl, rfl, rfl, rfl⟩ := ht
    by_cases hlong : maxPayloadLen < ofBe16 hi lo
    · have hs := Shape.tooLong type flags sequence rest hlong
      exact hs.head_eq ▸ hs
    by_cases hun : rest.length < ofBe16 hi lo + 2
    · have hs := Shape.unfinished type flags sequence hi lo (Nat.not_lt.1 hlong) hun
      exact hs.head_eq ▸ hs
    -- The payload and the CRC are there.
    have hlen : (rest.take (ofBe16 hi lo)).length = ofBe16 hi lo := by simp; omega
    let f : Frame := ⟨type, flags, sequence, rest.take (ofBe16 hi lo), by rw [hlen]; omega⟩
    have hs := Shape.checked f ((rest.drop (ofBe16 hi lo)).take 2)
      ((rest.drop (ofBe16 hi lo)).drop 2) (by simp; omega)
    have hshape : magic ++ f.body ++ (rest.drop (ofBe16 hi lo)).take 2 ++
        (rest.drop (ofBe16 hi lo)).drop 2 =
          magic ++ version1 :: type :: flags :: sequence :: hi :: lo :: rest := by
      simp only [f, Frame.body, hlen, be16_ofBe16, List.append_assoc, List.take_append_drop]
      rfl
    rw [hshape] at hs
    exact hs.head_eq ▸ hs

/-- More bytes do not change what is told of the head. -/
theorem head_append {s : List UInt8} (h : head s ≠ .incomplete) (t : List UInt8) :
    head (s ++ t) = head s := by
  have hs := shape_head s
  generalize head s = k at hs h
  cases hs with
  | mismatch hm => exact head_of_mismatch (mismatch_append hm t)
  | short | unfinished => exact absurd rfl h
  | tooLong type flags sequence rest hlong =>
    rw [List.append_assoc]
    exact (Shape.tooLong type flags sequence (rest ++ t) hlong).head_eq
  | checked f crc rest hcrc =>
    rw [List.append_assoc]
    exact head_body f hcrc (rest ++ t)

/-- The head of a stream is a frame when the stream starts with its bytes. -/
theorem head_eq_frame_iff {s : List UInt8} {f : Frame} : head s = .frame f ↔ f.bytes <+: s := by
  refine ⟨fun h => ?_, fun ⟨t, ht⟩ => ?_⟩
  · have hs := shape_head s
    generalize head s = k at hs h
    cases hs with
    | checked g crc rest hcrc =>
      rw [checkCrc] at h
      split at h
      · rename_i heq
        obtain rfl := Head.frame.inj h
        exact ⟨rest, by rw [heq, Frame.bytes]⟩
      · cases h
    | _ => cases h
  · rw [← ht, Frame.bytes, head_body f (length_be16 _), checkCrc]
    simp

theorem head_bytes (f : Frame) : head f.bytes = .frame f := head_eq_frame_iff.2 List.prefix_rfl

theorem head_nil : head [] = .incomplete := rfl

/-- A candidate not told yet is shorter than the longest frame. -/
theorem length_lt_of_incomplete {s : List UInt8} (h : head s = .incomplete) :
    s.length < frameOverhead + maxPayloadLen := by
  have hs := shape_head s
  rw [h] at hs
  rw [frameOverhead, maxPayloadLen]
  generalize hk : Head.incomplete = k at hs
  cases hs with
  | short _ hlt => omega
  | unfinished type flags sequence hi lo hle hlt =>
    rw [maxPayloadLen] at hle
    simp [magic]
    omega
  | checked f crc rest hcrc =>
    rw [checkCrc] at hk
    split at hk <;> cases hk
  | _ => cases hk

/-- The number of bytes it takes to tell what the head of a stream is. -/
def candidateLength : Head → ℕ
  | .mismatch k => k + 1
  | .tooLong => 10
  | .badCrc len => frameOverhead + len
  | .frame f => f.bytes.length
  | .incomplete => 0

theorem candidateLength_pos {h : Head} (hi : h ≠ .incomplete) : 0 < candidateLength h := by
  cases h with
  | frame f => rw [candidateLength, f.length_bytes, frameOverhead]; omega
  | incomplete => exact absurd rfl hi
  | _ => simp only [candidateLength, frameOverhead]; omega

theorem candidateLength_checkCrc (f : Frame) (crc : List UInt8) :
    candidateLength (checkCrc f crc) = frameOverhead + f.payload.length := by
  rw [checkCrc]
  split
  · exact f.length_bytes
  · rfl

theorem mismatch_take {s p : List UInt8} {k : ℕ} (h : mismatch s p = some k) :
    mismatch (s.take (k + 1)) p = some k := by
  induction s generalizing p k with
  | nil => simp [mismatch] at h
  | cons x s ih =>
    cases p with
    | nil => simp at h
    | cons y p =>
      simp only [mismatch] at h
      split at h
      · obtain ⟨k, hk, rfl⟩ := Option.map_eq_some_iff.1 h
        simp [mismatch, *, ih hk]
      · obtain rfl := Option.some.inj h
        simp [mismatch, *]

/-- What the head is, is told by as many bytes of the stream, which are there. -/
theorem head_take {s : List UInt8} (h : head s ≠ .incomplete) :
    candidateLength (head s) ≤ s.length ∧ head (s.take (candidateLength (head s))) = head s := by
  have hs := shape_head s
  generalize head s = k at hs h
  cases hs with
  | mismatch hm => exact ⟨(lt_of_mismatch hm).1, head_of_mismatch (mismatch_take hm)⟩
  | short | unfinished => exact absurd rfl h
  | tooLong type flags sequence rest hlong =>
    exact ⟨by simp [candidateLength, magic],
      (Shape.tooLong type flags sequence [] hlong).head_eq⟩
  | checked f crc rest hcrc =>
    have hlen : (magic ++ f.body ++ crc).length = frameOverhead + f.payload.length := by
      simp [magic, Frame.body, hcrc, frameOverhead]
      omega
    rw [candidateLength_checkCrc, ← hlen, List.take_left]
    refine ⟨by simp, ?_⟩
    simpa using head_body f hcrc []

/-- A head told at a byte takes all of the bytes up to it. -/
theorem candidateLength_concat {q : List UInt8} {x : UInt8} (hq : head q = .incomplete)
    (h : head (q ++ [x]) ≠ .incomplete) : candidateLength (head (q ++ [x])) = q.length + 1 := by
  obtain ⟨hle, htake⟩ := head_take h
  refine Nat.le_antisymm (by simpa using hle) (Nat.lt_of_not_le fun hlt => ?_)
  -- Told by bytes of `q`, it would already be told of `q`.
  rw [List.take_append_of_le_length hlt] at htake
  have happ := head_append (s := q.take (candidateLength (head (q ++ [x])))) (by rwa [htake])
    (q.drop (candidateLength (head (q ++ [x]))))
  rw [List.take_append_drop, htake] at happ
  exact h (happ ▸ hq)

/-- Fewer bytes than it takes tell nothing. -/
theorem head_of_lt {s t : List UInt8} (h : s.length < candidateLength (head (s ++ t))) :
    head s = .incomplete := by
  by_contra hne
  rw [head_append hne] at h
  exact absurd (head_take hne).1 (Nat.not_le.2 h)

/-! ## Scans -/

/-- The greedy verdict: a frame is taken, and a rejected head passed by one byte. -/
def greedyVerdict (s : List UInt8) : Verdict Frame :=
  match head s with
  | .frame f => .item f.bytes.length f
  | .incomplete => .wait
  | _ => .skip 1

/-- The frames found in a stream by the greedy scan, from left to right: at each
    position the frame starting there, or else one byte is passed, up to a
    candidate that is not complete. -/
def greedy (s : List UInt8) : List Frame := (scan greedyVerdict s).1

/-- What happens in a stream: a frame, or a candidate failing its CRC. -/
inductive Event
  | frame (f : Frame)
  | crcError
  deriving DecidableEq

/-- The frame of an event. -/
def Event.frame? : Event → Option Frame
  | .frame f => some f
  | .crcError => none

/-- The greedy verdict, with the candidates failing their CRC. -/
def greedyEvent (s : List UInt8) : Verdict Event :=
  match head s with
  | .frame f => .item f.bytes.length (.frame f)
  | .badCrc _ => .item 1 .crcError
  | .incomplete => .wait
  | _ => .skip 1

/-- The events of a stream, in the greedy scan. -/
def greedyEvents (s : List UInt8) : List Event := (scan greedyEvent s).1

/-- The frames of a stream are those of its events. -/
theorem greedy_eq_filterMap (s : List UInt8) :
    greedy s = (greedyEvents s).filterMap Event.frame? := by
  have hv : greedyVerdict = fun s => (greedyEvent s).filterMap Event.frame? := by
    funext s
    rw [greedyVerdict, greedyEvent]
    cases head s <;> rfl
  rw [greedy, hv, scan_filterMap]
  rfl

/-- The number of bytes of a rejected candidate: all it takes to reject it, but
    for an `'S'` after an `'S'`, which may start the magic anew. -/
def rejectedLength (s : List UInt8) (h : Head) : ℕ :=
  if h = .mismatch 1 ∧ s[1]? = magic[0]? then 1 else candidateLength h

/-- The wholesale verdict: a frame is taken, and a rejected candidate passed whole. -/
def wholesaleVerdict (s : List UInt8) : Verdict Frame :=
  match head s with
  | .frame f => .item f.bytes.length f
  | .incomplete => .wait
  | h => .skip (rejectedLength s h)

/-- The frames found in a stream when rejected candidates are passed whole. -/
def wholesale (s : List UInt8) : List Frame := (scan wholesaleVerdict s).1

theorem greedyVerdict_of_head_ne {s : List UInt8} (hf : ∀ f, head s ≠ .frame f)
    (hi : head s ≠ .incomplete) : greedyVerdict s = .skip 1 := by
  rw [greedyVerdict]
  cases h : head s with
  | frame f => exact absurd h (hf f)
  | incomplete => exact absurd h hi
  | _ => rfl

theorem greedyVerdict_eq_item_iff {s : List UInt8} {n : ℕ} {f : Frame} :
    greedyVerdict s = .item n f ↔ head s = .frame f ∧ n = f.bytes.length := by
  rw [greedyVerdict]
  cases head s <;> simp
  constructor
  · rintro ⟨rfl, rfl⟩
    exact ⟨rfl, rfl⟩
  · rintro ⟨rfl, rfl⟩
    exact ⟨rfl, rfl⟩

theorem greedyVerdict_eq_wait_iff {s : List UInt8} :
    greedyVerdict s = .wait ↔ head s = .incomplete := by
  rw [greedyVerdict]
  cases head s <;> simp

theorem greedyVerdict_append {s : List UInt8} (h : greedyVerdict s ≠ .wait) (t : List UInt8) :
    greedyVerdict (s ++ t) = greedyVerdict s := by
  rw [Ne, greedyVerdict_eq_wait_iff] at h
  rw [greedyVerdict, greedyVerdict, head_append h]

/-- The greedy scan does not depend on how the stream is cut. -/
theorem incremental_greedyVerdict : Incremental greedyVerdict where
  item {s n f} h := by
    obtain ⟨hf, rfl⟩ := greedyVerdict_eq_item_iff.1 h
    refine ⟨by rw [f.length_bytes, frameOverhead]; omega, (head_eq_frame_iff.1 hf).length_le,
      fun t => ?_⟩
    rw [greedyVerdict_append (by simp [h]), h]
  skip {s n} h := by
    have hn : n = 1 := by
      rw [greedyVerdict] at h
      split at h <;> simp_all
    subst hn
    refine ⟨Nat.one_pos, ?_, fun t => by rw [greedyVerdict_append (by simp [h]), h]⟩
    cases s with
    | nil => simp [greedyVerdict, head_nil] at h
    | cons x s => simp

theorem greedyEvent_eq_wait_iff {s : List UInt8} :
    greedyEvent s = .wait ↔ head s = .incomplete := by
  rw [greedyEvent]
  cases head s <;> simp

theorem greedyEvent_append {s : List UInt8} (h : greedyEvent s ≠ .wait) (t : List UInt8) :
    greedyEvent (s ++ t) = greedyEvent s := by
  rw [Ne, greedyEvent_eq_wait_iff] at h
  rw [greedyEvent, greedyEvent, head_append h]

theorem ne_nil_of_greedyEvent {s : List UInt8} (h : greedyEvent s ≠ .wait) : 0 < s.length := by
  cases s with
  | nil => exact absurd (greedyEvent_eq_wait_iff.2 head_nil) h
  | cons x s => simp

/-- Neither do the events. -/
theorem incremental_greedyEvent : Incremental greedyEvent where
  item {s n e} h := by
    have hpos := ne_nil_of_greedyEvent (s := s) (by simp [h])
    have happ := greedyEvent_append (s := s) (by simp [h])
    have hn : 0 < n ∧ n ≤ s.length := by
      rw [greedyEvent] at h
      split at h
      · rename_i f hf
        obtain ⟨rfl, _⟩ := Verdict.item.inj h
        exact ⟨by rw [f.length_bytes, frameOverhead]; omega, (head_eq_frame_iff.1 hf).length_le⟩
      · obtain ⟨rfl, _⟩ := Verdict.item.inj h
        omega
      · cases h
      · cases h
    exact ⟨hn.1, hn.2, fun t => by rw [happ, h]⟩
  skip {s n} h := by
    have hpos := ne_nil_of_greedyEvent (s := s) (by simp [h])
    have happ := greedyEvent_append (s := s) (by simp [h])
    have hn : n = 1 := by
      rw [greedyEvent] at h
      split at h <;> simp_all
    exact ⟨by omega, by omega, fun t => by rw [happ, h]⟩

theorem rejectedLength_pos {s : List UInt8} (hi : head s ≠ .incomplete) :
    0 < rejectedLength s (head s) := by
  rw [rejectedLength]
  split
  · exact Nat.one_pos
  · exact candidateLength_pos hi

theorem rejectedLength_le {s : List UInt8} (hi : head s ≠ .incomplete) :
    rejectedLength s (head s) ≤ s.length := by
  have hle := (head_take hi).1
  rw [rejectedLength]
  split
  · have := candidateLength_pos hi
    omega
  · exact hle

/-- More bytes do not change the length of a rejected candidate. -/
theorem rejectedLength_append {s : List UInt8} (hi : head s ≠ .incomplete) (t : List UInt8) :
    rejectedLength (s ++ t) (head s) = rejectedLength s (head s) := by
  rw [rejectedLength, rejectedLength]
  by_cases h : head s = .mismatch 1
  · have hlt : 1 < s.length := by
      have := (head_take hi).1
      rw [h] at this
      exact this
    rw [List.getElem?_append_left hlt]
  · simp [h]

theorem wholesaleVerdict_eq_item_iff {s : List UInt8} {n : ℕ} {f : Frame} :
    wholesaleVerdict s = .item n f ↔ head s = .frame f ∧ n = f.bytes.length := by
  rw [wholesaleVerdict]
  cases head s <;> simp
  constructor
  · rintro ⟨rfl, rfl⟩
    exact ⟨rfl, rfl⟩
  · rintro ⟨rfl, rfl⟩
    exact ⟨rfl, rfl⟩

theorem wholesaleVerdict_eq_skip_iff {s : List UInt8} {n : ℕ} :
    wholesaleVerdict s = .skip n ↔
      (∀ f, head s ≠ .frame f) ∧ head s ≠ .incomplete ∧ n = rejectedLength s (head s) := by
  rw [wholesaleVerdict]
  cases head s <;> simp [eq_comm]

theorem wholesaleVerdict_eq_wait_iff {s : List UInt8} :
    wholesaleVerdict s = .wait ↔ head s = .incomplete := by
  rw [wholesaleVerdict]
  cases head s <;> simp

/-- Neither does the scan passing candidates whole. -/
theorem incremental_wholesaleVerdict : Incremental wholesaleVerdict where
  item {s n f} h := by
    obtain ⟨hf, rfl⟩ := wholesaleVerdict_eq_item_iff.1 h
    refine ⟨by rw [f.length_bytes, frameOverhead]; omega, (head_eq_frame_iff.1 hf).length_le,
      fun t => wholesaleVerdict_eq_item_iff.2 ⟨?_, rfl⟩⟩
    rw [head_append (by simp [hf]), hf]
  skip {s n} h := by
    obtain ⟨hf, hi, rfl⟩ := wholesaleVerdict_eq_skip_iff.1 h
    refine ⟨rejectedLength_pos hi, rejectedLength_le hi,
      fun t => wholesaleVerdict_eq_skip_iff.2 ?_⟩
    rw [head_append hi, rejectedLength_append hi]
    exact ⟨hf, hi, rfl⟩

/-! ### The wholesale scan, byte by byte -/

section

variable {q : List UInt8} {b : UInt8}

theorem online_incomplete (h : head (q ++ [b]) = .incomplete) :
    online wholesaleVerdict q b = (q ++ [b], none) := by
  simp [online, wholesaleVerdict_eq_wait_iff.2 h]

/-- A frame told at a byte leaves nothing pending. -/
theorem online_frame (hq : head q = .incomplete) {f : Frame} (h : head (q ++ [b]) = .frame f) :
    online wholesaleVerdict q b = ([], some f) := by
  have hlen := candidateLength_concat (x := b) hq (by simp [h])
  rw [h, candidateLength] at hlen
  simp [online, wholesaleVerdict_eq_item_iff.2 ⟨h, rfl⟩, hlen]

/-- Neither does a rejection at a byte, but for an `'S'` after an `'S'`. -/
theorem online_rejected (hq : head q = .incomplete) (hf : ∀ f, head (q ++ [b]) ≠ .frame f)
    (hi : head (q ++ [b]) ≠ .incomplete) : online wholesaleVerdict q b =
      (if head (q ++ [b]) = .mismatch 1 ∧ b = 0x53 then [b] else [], none) := by
  have hlen := candidateLength_concat hq hi
  have hv := wholesaleVerdict_eq_skip_iff.2 ⟨hf, hi, rfl⟩
  rw [online, hv]
  simp only [rejectedLength]
  by_cases hm : head (q ++ [b]) = .mismatch 1
  · rw [hm, candidateLength] at hlen
    obtain ⟨y, rfl⟩ := List.length_eq_one_iff.1 (by omega : q.length = 1)
    simp only [List.cons_append, List.nil_append] at hm ⊢
    simp only [hm, candidateLength, true_and]
    by_cases hb : b = 0x53 <;> simp [hb, magic]
  · simp [hm, hlen]

end

/-- Nothing is left of a candidate told, but for an `'S'` after an `'S'`. -/
theorem prompt_wholesaleVerdict : Prompt wholesaleVerdict := fun q b hq => by
  rw [wholesaleVerdict_eq_wait_iff] at hq ⊢
  cases h : head (q ++ [b]) with
  | incomplete => rw [online_incomplete h, h]
  | frame f => rw [online_frame hq h, head_nil]
  | mismatch | tooLong | badCrc =>
    rw [online_rejected hq (by simp [h]) (by simp [h])]
    split
    · rename_i hS
      rw [hS.2]
      rfl
    · exact head_nil

end SliverOS.Wire
