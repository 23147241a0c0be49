import SliverOS.Protocol.Browser
import SliverOS.Protocol.Firmware

/-!
# Bytes accounted for

What becomes of the bytes fed to the two parsers: those of the frames delivered, those of
the candidates failing their CRC, those counted as dropped, and those kept.

The browser accounts for every byte (`conserves_feedAll`). The firmware counts a candidate
rejected for its version or its length as one byte dropped, although there are five, or
ten, of it: the bytes are accounted for exactly when there is no such candidate
(`accounted_iff`).
-/

namespace SliverOS

open Streams Wire

namespace Firmware

/-! ## The firmware -/

/-- The length of a frame on the wire. -/
def SlvrFrame.encodedLength (c : SlvrFrame) : ℕ := frameOverhead + c.length.toNat

/-- The frame whose CRC is wrong at a byte, as `crc_errors` counts it. -/
def crcFailed (p : SlvrParser) (b : UInt8) : Option SlvrFrame :=
  if p.state = .crcL ∧ (slvrParserFeedByte p b).2 = none then
    some (slvrParserFeedByte p b).1.currentFrame
  else none

/-- The parser, with the frames counted in `crc_errors` for outputs. -/
def failures : Transducer SlvrParser UInt8 SlvrFrame := fun p b =>
  ((slvrParserFeedByte p b).1, crcFailed p b)

/-- The bytes of some frames on the wire. -/
def encodedLengths (cs : List SlvrFrame) : ℕ := (cs.map SlvrFrame.encodedLength).sum

/-- The bytes fed are those dropped, those of the frames delivered, those of the frames failing
    their CRC, and those of the candidate being read. -/
def Accounted (s : List UInt8) : Prop :=
  s.length =
    (Transducer.state slvrParserFeedByte slvrParserInit s).droppedBytes.toNat +
      encodedLengths (Transducer.outputs slvrParserFeedByte slvrParserInit s) +
      encodedLengths (Transducer.outputs failures slvrParserInit s) +
      (Transducer.state slvrParserFeedByte slvrParserInit s).pending.length

instance (s : List UInt8) : Decidable (Accounted s) := inferInstanceAs (Decidable (_ = _))

/-- The bytes of a rejected candidate that are not counted as dropped. -/
def uncounted : Head → ℕ
  | .mismatch 4 => 4
  | .tooLong => 9
  | _ => 0

/-- The candidate told at the byte `n` of a stream, in its wholesale scan, or `incomplete`
    when that byte does not tell. -/
def toldAt (s : List UInt8) (n : ℕ) : Head :=
  head ((scan wholesaleVerdict (s.take n)).2 ++ (s.drop n).take 1)

/-- A candidate of the stream is rejected for its version, or for its length. -/
def RejectsHeader (s : List UInt8) : Prop :=
  ∃ n < s.length, toldAt s n = .mismatch 4 ∨ toldAt s n = .tooLong

instance (s : List UInt8) : Decidable (RejectsHeader s) :=
  inferInstanceAs (Decidable (∃ n < s.length, _))

/-- What becomes of the bytes of the candidate being read and of the one fed. -/
def Accounts (p : SlvrParser) (b : UInt8) : Prop :=
  ∃ d, (slvrParserFeedByte p b).1.droppedBytes = p.droppedBytes + UInt32.ofNat d ∧
    p.pending.length + 1 = d + encodedLengths (slvrParserFeedByte p b).2.toList +
      encodedLengths (crcFailed p b).toList + (slvrParserFeedByte p b).1.pending.length +
      uncounted (head (p.pending ++ [b]))

section

variable {p : SlvrParser} {b : UInt8}

/-- A byte kept after the first one of a candidate tells nothing. -/
theorem head_of_kept (hp : p.Good) (h : 2 ≤ (slvrParserFeedByte p b).1.pending.length) :
    head (p.pending ++ [b]) = .incomplete := by
  have hpend := (feedByte_refines hp b).pending
  cases hh : head (p.pending ++ [b]) with
  | incomplete => rfl
  | frame f =>
    rw [hpend, online_frame (head_pending hp) hh] at h
    simp at h
  | mismatch | tooLong | badCrc =>
    rw [hpend, online_rejected (head_pending hp) (by rw [hh]; nofun) (by rw [hh]; nofun)] at h
    split at h <;> simp at h

/-- A byte kept is accounted for. -/
theorem Accounts.of_kept (hp : p.Good) {q : SlvrParser} (h : slvrParserFeedByte p b = (q, none))
    (hs : p.state ≠ .crcL) (hlen : 2 ≤ q.pending.length)
    (hdropped : q.droppedBytes = p.droppedBytes) : Accounts p b := by
  have hi := head_of_kept hp (b := b) (by rwa [h])
  have hpend := (feedByte_refines hp b).pending
  rw [online_incomplete hi] at hpend
  refine ⟨0, ?_, ?_⟩
  · rw [h, hdropped]
    simp
  · rw [hpend, hi, crcFailed, if_neg fun hc => hs hc.1, h, List.length_append]
    simp [encodedLengths, uncounted]

/-- A candidate rejected by its preamble is dropped, but for its version. -/
theorem Accounts.of_mismatch {q : SlvrParser} (h : slvrParserFeedByte p b = (q, none))
    (hs : p.state ≠ .crcL) {d k : ℕ} (hdropped : q.droppedBytes = p.droppedBytes + UInt32.ofNat d)
    (hk : mismatch (p.pending ++ [b]) preamble = some k)
    (hlen : p.pending.length + 1 = d + q.pending.length + uncounted (.mismatch k)) :
    Accounts p b := by
  refine ⟨d, by rw [h, hdropped], ?_⟩
  rw [head_of_mismatch hk, crcFailed, if_neg fun hc => hs hc.1, h]
  simpa [encodedLengths] using hlen

/-- The second byte of the length: it is kept, or the candidate is rejected. -/
theorem accounts_lenL (hs : p.state = .lenL) (hp : p.Good) : Accounts p b := by
  obtain ⟨_, hi, _, hpend⟩ := of_good_lenL hs hp
  have hne : p.state ≠ .crcL := by
    rw [hs]
    nofun
  have hfeed := feedByte_lenL (b := b) hs
  have hhead := head_of_long (b := b) hs hp
  generalize p.currentFrame.length ||| b.toUInt16 = n at hfeed hhead
  by_cases hlong : 512 < n
  · -- Ten bytes are passed, and one counted.
    rw [if_pos hlong] at hfeed
    refine ⟨1, by rw [hfeed]; rfl, ?_⟩
    rw [hhead hlong, crcFailed, if_neg fun hc => hne hc.1, hfeed, hpend]
    rfl
  rw [if_neg hlong] at hfeed
  by_cases hzero : n = 0
  · rw [if_pos hzero] at hfeed
    exact .of_kept hp hfeed hne (by simp [SlvrParser.pending, magic]) rfl
  · rw [if_neg hzero] at hfeed
    exact .of_kept hp hfeed hne (by simp [SlvrParser.pending, magic]) rfl

/-- A byte of the payload. -/
theorem accounts_payload (hs : p.state = .payload) (hp : p.Good) : Accounts p b := by
  have hne : p.state ≠ .crcL := by
    rw [hs]
    nofun
  have hfeed := feedByte_payload (b := b) hs
  by_cases hlast : p.currentFrame.length ≤ p.payloadIdx + 1
  · rw [if_pos hlast] at hfeed
    exact .of_kept hp hfeed hne (by simp [SlvrParser.pending, magic]) rfl
  · rw [if_neg hlast] at hfeed
    exact .of_kept hp hfeed hne (by simp [SlvrParser.pending, hs, magic]) rfl

/-- The last byte of the CRC: the frame is delivered, or fails its CRC. -/
theorem accounts_crcL (hs : p.state = .crcL) (hp : p.Good) : Accounts p b := by
  obtain ⟨hv, hle, _⟩ : p.currentFrame.version = version1 ∧
      p.currentFrame.length ≤ 512 ∧ p.payloadIdx = p.currentFrame.length ∧
        ∃ hi : UInt8, p.currentFrame.crc16 = hi.toUInt16 <<< 8 := by
    simpa only [SlvrParser.Good, hs] using hp
  have hlen : p.pending.length + 1 = frameOverhead + p.currentFrame.length.toNat := by
    simp only [SlvrParser.pending, hs]
    simp [magic, SlvrFrame.headerBytes, SlvrFrame.length_payloadBytes hle, frameOverhead]
    omega
  have hu : uncounted (head (p.pending ++ [b])) = 0 := by
    simp only [SlvrParser.pending, hs, head_crc hv hle, checkCrc]
    split <;> rfl
  have hfeed := feedByte_crcL (b := b) hs
  generalize p.currentFrame.crc16 ||| b.toUInt16 = n at hfeed
  refine ⟨0, ?_, ?_⟩
  · rw [hfeed]
    dsimp only
    split <;> exact (UInt32.add_zero _).symm
  rw [hu, hlen, crcFailed]
  by_cases hok : n = expectedCrc { p.currentFrame with crc16 := n }
  · rw [if_pos hok] at hfeed
    have hsome : ¬(p.state = .crcL ∧ (slvrParserFeedByte p b).2 = none) := by
      rw [hfeed]
      simp
    rw [if_neg hsome, hfeed]
    simp [encodedLengths, SlvrFrame.encodedLength, SlvrParser.pending]
  · rw [if_neg hok] at hfeed
    rw [if_pos ⟨hs, by rw [hfeed]⟩, hfeed]
    simp [encodedLengths, SlvrFrame.encodedLength, SlvrParser.pending]

end

/-- What a byte does is accounted for. -/
theorem accounts_feedByte {p : SlvrParser} (hp : p.Good) (b : UInt8) : Accounts p b := by
  obtain ⟨state, c, idx, dropped, received, errors⟩ := p
  cases state with
  | magic0 =>
    by_cases hb : b = 0x53
    · subst hb
      exact ⟨0, by simp [slvrParserFeedByte], rfl⟩
    · exact .of_mismatch (if_neg hb) (by simp) (d := 1) (k := 0) rfl
        (by simp [SlvrParser.pending, mismatch, preamble, magic, hb]) rfl
  | magic1 =>
    by_cases hb : b = 0x4C
    · subst hb
      exact .of_kept hp rfl (by simp) (Nat.le_refl _) rfl
    by_cases hb' : b = 0x53
    · subst hb'
      exact .of_mismatch rfl (by simp) (d := 1) (k := 1) rfl rfl rfl
    · exact .of_mismatch ((if_neg hb).trans (if_neg hb')) (by simp) (d := 2) (k := 1) rfl
        (by simp [SlvrParser.pending, mismatch, preamble, magic, hb]) rfl
  | magic2 =>
    by_cases hb : b = 0x56
    · subst hb
      exact .of_kept hp rfl (by simp) (by simp [SlvrParser.pending]) rfl
    · exact .of_mismatch (if_neg hb) (by simp) (d := 3) (k := 2) rfl
        (by simp [SlvrParser.pending, mismatch, preamble, magic, hb]) rfl
  | magic3 =>
    by_cases hb : b = 0x52
    · subst hb
      exact .of_kept hp rfl (by simp) (by simp [SlvrParser.pending, magic]) rfl
    · exact .of_mismatch (if_neg hb) (by simp) (d := 4) (k := 3) rfl
        (by simp [SlvrParser.pending, mismatch, preamble, magic, hb]) rfl
  | version =>
    by_cases hb : b = version1
    · subst hb
      exact .of_kept hp rfl (by simp) (by simp [SlvrParser.pending, magic]) rfl
    · exact .of_mismatch (if_neg hb) (by simp) (d := 1) (k := 4) rfl
        (by simp [SlvrParser.pending, mismatch, preamble, magic, hb]) rfl
  | type | flags | seq | lenH | crcH =>
    exact .of_kept hp rfl (by simp) (by simp [SlvrParser.pending, magic]) rfl
  | lenL => exact accounts_lenL rfl hp
  | payload => exact accounts_payload rfl hp
  | crcL => exact accounts_crcL rfl hp

/-! ### A run -/

theorem state_failures (p : SlvrParser) (s : List UInt8) :
    Transducer.state failures p s = Transducer.state slvrParserFeedByte p s := by
  induction s generalizing p with
  | nil => rfl
  | cons b s ih => exact ih _

theorem encodedLengths_append (cs ds : List SlvrFrame) :
    encodedLengths (cs ++ ds) = encodedLengths cs + encodedLengths ds := by
  simp [encodedLengths]

theorem uncounted_eq_zero {h : Head} : uncounted h = 0 ↔ ¬(h = .mismatch 4 ∨ h = .tooLong) := by
  unfold uncounted
  split <;> simp_all

/-- The bytes pending after a stream are those the scan of the stream waits at. -/
theorem pending_state (s : List UInt8) :
    (Transducer.state slvrParserFeedByte slvrParserInit s).pending =
      (scan wholesaleVerdict s).2 := by
  have hscan := incremental_wholesaleVerdict.online_eq_scan prompt_wholesaleVerdict
    (wholesaleVerdict_eq_wait_iff.2 head_nil) s
  rw [List.nil_append] at hscan
  rw [(simulates good_init s).1, ← hscan]
  rfl

theorem toldAt_concat_of_lt {s : List UInt8} {n : ℕ} (hn : n < s.length) (b : UInt8) :
    toldAt (s ++ [b]) n = toldAt s n := by
  have hdrop : ((s ++ [b]).drop n).take 1 = (s.drop n).take 1 := by
    rw [List.drop_append_of_le_length (Nat.le_of_lt hn), List.take_append_of_le_length]
    rw [List.length_drop]
    omega
  rw [toldAt, toldAt, hdrop, List.take_append_of_le_length (Nat.le_of_lt hn)]

theorem toldAt_concat (s : List UInt8) (b : UInt8) : toldAt (s ++ [b]) s.length =
    head ((Transducer.state slvrParserFeedByte slvrParserInit s).pending ++ [b]) := by
  rw [toldAt, List.take_left, List.drop_left, pending_state]
  rfl

theorem rejectsHeader_concat {s : List UInt8} {b : UInt8} : RejectsHeader (s ++ [b]) ↔
    RejectsHeader s ∨ toldAt (s ++ [b]) s.length = .mismatch 4 ∨
      toldAt (s ++ [b]) s.length = .tooLong := by
  rw [RejectsHeader, List.length_append, List.length_singleton, Nat.exists_lt_succ_right]
  refine or_congr_left (exists_congr fun n => and_congr_right fun hn => ?_)
  rw [toldAt_concat_of_lt hn]

/-- The bytes of a stream are accounted for, but for some of those of the candidates
    rejected for their version or their length. -/
theorem ledger (s : List UInt8) : ∃ d u,
    (Transducer.state slvrParserFeedByte slvrParserInit s).droppedBytes = UInt32.ofNat d ∧
      s.length = d + encodedLengths (Transducer.outputs slvrParserFeedByte slvrParserInit s) +
        encodedLengths (Transducer.outputs failures slvrParserInit s) +
        (Transducer.state slvrParserFeedByte slvrParserInit s).pending.length + u ∧
      (u = 0 ↔ ¬RejectsHeader s) := by
  induction s using List.reverseRecOn with
  | nil => exact ⟨0, 0, rfl, rfl, by simp [RejectsHeader]⟩
  | append_singleton s b ih =>
    obtain ⟨d, u, hd, hlen, hu⟩ := ih
    have hgood : (Transducer.state slvrParserFeedByte slvrParserInit s).Good :=
      tracks_feedByte.good_state good_init s
    obtain ⟨d', hd', hstep⟩ := accounts_feedByte hgood b
    rw [rejectsHeader_concat, not_or, ← hu, toldAt_concat, ← uncounted_eq_zero]
    simp only [Transducer.state_append, Transducer.outputs_append, encodedLengths_append,
      state_failures, Transducer.outputs_cons, Transducer.outputs_nil, Transducer.state_cons,
      Transducer.state_nil, List.append_nil, List.length_append, List.length_singleton]
    refine ⟨d + d', u + _, by rw [hd', hd, UInt32.ofNat_add], ?_, Nat.add_eq_zero_iff⟩
    simp only [failures]
    omega

/-- The bytes fed to the firmware are accounted for exactly when no candidate is rejected
    for its version or its length. -/
theorem accounted_iff {s : List UInt8} (hs : s.length < 2 ^ 32) :
    Accounted s ↔ ¬RejectsHeader s := by
  obtain ⟨d, u, hd, hlen, hu⟩ := ledger s
  -- The counter does not wrap around.
  have hcount : (UInt32.ofNat d).toNat = d := UInt32.toNat_ofNat_of_lt' (by
    rw [UInt32.size]
    omega)
  rw [← hu, Accounted, hd, hcount]
  omega

theorem accounted_iff_ping :
    Accounted pingFrame.bytes ↔ ¬RejectsHeader pingFrame.bytes :=
  accounted_iff (by decide)

/-- Of the five bytes of a frame of another version, one is counted. -/
theorem not_accounted : ¬Accounted (magic ++ [0x02]) := by decide +kernel

end Firmware

namespace Browser

/-! ## The browser -/

/-- The bytes of some frames on the wire. -/
def encodedLengths (rs : List Received) : ℕ := (rs.map fun r => frameOverhead + r.length).sum

namespace SlvrStreamParser

/-- The bytes fed are those dropped, those of the frames delivered, and those in the buffer,
    which are the last ones fed. -/
structure Conserves (p : SlvrStreamParser) (fed : List UInt8) (rs : List Received) : Prop where
  valid : p.Valid
  suffix : p.pending <:+ fed
  length : fed.length = p.droppedBytes + encodedLengths rs + p.bufLen

theorem conserves_new : new.Conserves [] [] := ⟨Nat.zero_le _, List.nil_suffix, rfl⟩

section

variable {p : SlvrStreamParser} {fed : List UInt8} {rs : List Received}

theorem Conserves.discard (hc : p.Conserves fed rs) {n : ℕ} (hn : n ≤ p.bufLen) :
    (p.discard n).Conserves fed rs where
  valid := valid_advance hc.valid hn
  suffix := by
    have hpend : (p.discard n).pending = p.pending.drop n := pending_advance hc.valid n
    exact hpend ▸ (List.drop_suffix n _).trans hc.suffix
  length := by
    have := hc.length
    simp only [SlvrStreamParser.discard, SlvrStreamParser.advance]
    omega

theorem Conserves.frame (hc : p.Conserves fed rs) {n : ℕ} {r : Received}
    (hr : n = frameOverhead + r.length) (hn : n ≤ p.bufLen) :
    (p.advance n).Conserves fed (rs ++ [r]) where
  valid := valid_advance hc.valid hn
  suffix := pending_advance hc.valid _ ▸ (List.drop_suffix _ _).trans hc.suffix
  length := by
    have := hc.length
    simp only [SlvrStreamParser.advance, encodedLengths, List.map_append, List.sum_append,
      List.map_cons, List.map_nil, List.sum_cons, List.sum_nil] at this ⊢
    omega

theorem Conserves.push (hc : p.Conserves fed rs) (chunk : List UInt8) :
    (p.push chunk).Conserves (fed ++ chunk) rs where
  valid := valid_push
  suffix := by
    obtain ⟨t, ht⟩ := hc.suffix
    exact ⟨t, by rw [pending_push hc.valid, ← List.append_assoc, ht]⟩
  length := by
    have := hc.length
    rw [List.length_append]
    simp only [SlvrStreamParser.push]
    omega

/-- The bytes are conserved, and fewer are in the buffer than of the longest frame. -/
def Settled (fed : List UInt8) (p : SlvrStreamParser) (rs : List Received) : Prop :=
  p.Conserves fed rs ∧ p.bufLen < frameOverhead + maxPayloadLen

/-- An iteration conserves the bytes, and settles the buffer when it stops. -/
abbrev Kept (fed : List UInt8) (rs : List Received) (n : ℕ) : Iteration → Prop :=
  Keeps (fun p rs => p.Conserves fed rs) (Settled fed) n rs

theorem kept_examine (hc : p.Conserves fed rs) {n : ℕ} (hn : p.bufLen ≤ n) :
    Kept fed rs n p.examine := by
  rw [examine]
  by_cases hshort : p.bufLen < 10
  · rw [if_pos hshort]
    exact ⟨hc, by rw [frameOverhead]; omega⟩
  -- A rejected candidate loses its first byte.
  have hone : (p.discard 1).bufLen < n ∧ (p.discard 1).Conserves fed rs :=
    ⟨Nat.lt_of_lt_of_le (Nat.sub_lt (by omega) Nat.one_pos) hn, hc.discard (by omega)⟩
  rw [if_neg hshort]
  dsimp only
  split
  · exact hone
  split
  · exact hone
  rename_i hfits
  split
  · rename_i hwait
    exact ⟨hc, Nat.lt_of_lt_of_le hwait (Nat.add_le_add_left (Nat.not_lt.1 hfits) _)⟩
  rename_i hwhole
  split
  · refine ⟨Nat.lt_of_lt_of_le (Nat.sub_lt (by omega) ?_) hn, hc.frame rfl (Nat.not_lt.1 hwhole)⟩
    rw [frameOverhead]
    omega
  · exact ⟨hone.1, hone.2.valid, hone.2.suffix, hone.2.length⟩

theorem kept_iterate (hc : p.Conserves fed rs) : Kept fed rs p.bufLen p.iterate := by
  rw [iterate]
  cases hm : p.findMagic with
  | none =>
    refine ⟨hc.discard (Nat.sub_le _ _), ?_⟩
    simp only [SlvrStreamParser.discard, SlvrStreamParser.advance, frameOverhead]
    omega
  | some i =>
    by_cases hi : 0 < i
    · have hle := (findMagic_eq_some hc.valid hm).1
      simp only [if_pos hi]
      exact kept_examine (hc.discard hle) (Nat.sub_le _ _)
    · simp only [if_neg hi]
      exact kept_examine hc (Nat.le_refl _)

/-- The loop conserves the bytes, and settles the buffer. -/
theorem settled_loop {n : ℕ} (hc : p.Conserves fed rs) (hn : p.bufLen ≤ n) :
    Settled fed (loop n p).1 (rs ++ (loop n p).2) :=
  loop_rule (fun p rs => p.Conserves fed rs) (Settled fed)
    (fun _ _ hc hlt => ⟨hc, Nat.lt_add_right _ hlt⟩) (fun _ _ hc _ => kept_iterate hc) hc hn

theorem settled_feed (hs : Settled fed p rs) (chunk : List UInt8) :
    Settled (fed ++ chunk) (p.feed chunk).1 (rs ++ (p.feed chunk).2) := by
  rw [feed]
  by_cases hempty : chunk = []
  · rw [if_pos hempty, hempty, List.append_nil, List.append_nil]
    exact hs
  · rw [if_neg hempty]
    exact settled_loop (hs.1.push chunk) (Nat.le_refl _)

theorem settled_feedAll (hs : Settled fed p rs) (chunks : List (List UInt8)) :
    Settled (fed ++ chunks.flatten) (p.feedAll chunks).1 (rs ++ (p.feedAll chunks).2) := by
  induction chunks generalizing p fed rs with
  | nil => simpa [feedAll] using hs
  | cons chunk chunks ih => simpa [feedAll] using ih (settled_feed hs chunk)

end

/-- Every byte fed to the browser is dropped, delivered, or in the buffer, which holds the
    last bytes fed and is shorter than the longest frame. -/
theorem conserves_feedAll (chunks : List (List UInt8)) :
    chunks.flatten.length = (new.feedAll chunks).1.droppedBytes +
        encodedLengths (new.feedAll chunks).2 + (new.feedAll chunks).1.bufLen ∧
      (new.feedAll chunks).1.bufLen ≤ (new.feedAll chunks).1.buffer.length ∧
      (new.feedAll chunks).1.buffer.take (new.feedAll chunks).1.bufLen =
        chunks.flatten.drop (chunks.flatten.length - (new.feedAll chunks).1.bufLen) ∧
      (new.feedAll chunks).1.bufLen < 524 := by
  obtain ⟨hc, hlt⟩ := settled_feedAll ⟨conserves_new, by decide⟩ chunks
  refine ⟨hc.length, hc.valid, ?_, hlt⟩
  have hsuffix := List.suffix_iff_eq_drop.1 hc.suffix
  rwa [length_pending hc.valid] at hsuffix

end SlvrStreamParser

end Browser

end SliverOS
