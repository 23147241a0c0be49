import SliverOS.Protocol.Firmware

/-!
# Noise before a frame

The parser of the firmware looks for the magic with four states. After a
mismatch in the second one it keeps an `'S'` as the start of another magic; in
the third and the fourth, it does not. A frame that comes right after `"SL"` or
`"SLV"` is thus lost, its `'S'` being taken for the byte that does not match —
unless that start of a magic was itself lost for the same reason.

Noise ending in a run of such starts (`danglingStarts`) leaves the parser in its
third or fourth state when there is an odd number of them (`pending_noise`):
a frame is delivered after noise if and only if there is an even number
(`resync_iff`).
-/

namespace SliverOS.Firmware

open Streams Wire

/-- The number of starts `"SL"` and `"SLV"` of a magic which noise ends in, one
    right after the other. The noise is read backwards. -/
def danglingStarts : List UInt8 → ℕ
  | 0x4C :: 0x53 :: r => danglingStarts r + 1
  | 0x56 :: 0x4C :: 0x53 :: r => danglingStarts r + 1
  | _ => 0

/-- What noise leaves pending, read backwards. -/
def noisePending : List UInt8 → List UInt8
  | 0x53 :: r => if Even (danglingStarts r) then [0x53] else []
  | 0x4C :: 0x53 :: r => if Even (danglingStarts r) then [0x53, 0x4C] else []
  | 0x56 :: 0x4C :: 0x53 :: r => if Even (danglingStarts r) then [0x53, 0x4C, 0x56] else []
  | _ => []

/-- The noise leaves an `'S'` or nothing pending when it ends in an even number of starts. -/
theorem even_danglingStarts_iff (r : List UInt8) :
    Even (danglingStarts r) ↔ noisePending r = [] ∨ noisePending r = [0x53] := by
  fun_cases noisePending r with
  | case1 r h => simp [danglingStarts]
  | case2 r h => simp [danglingStarts]
  | case3 r h => simp [danglingStarts, Nat.even_add_one, h]
  | case4 r h => simp [danglingStarts, Nat.even_add_one, h]
  | case5 r h => simp [danglingStarts, Nat.even_add_one, h]
  | case6 r h => simp [danglingStarts, Nat.even_add_one, h]
  | case7 r _ h₂ h₃ =>
    have hzero : danglingStarts r = 0 := by
      rw [danglingStarts.eq_def]
      split
      · exact (h₂ _ rfl).elim
      · exact (h₃ _ rfl).elim
      · rfl
    simp [hzero]

/-- A candidate rejected by its preamble leaves nothing, but for an `'S'` after an `'S'`. -/
theorem online_mismatch {q : List UInt8} {b : UInt8} {k : ℕ} (hq : head q = .incomplete)
    (h : mismatch (q ++ [b]) preamble = some k) :
    (online wholesaleVerdict q b).1 = if k = 1 ∧ b = 0x53 then [b] else [] := by
  have hh := head_of_mismatch h
  rw [online_rejected hq (by simp [hh]) (by simp [hh]), hh]
  simp

section

variable (b : UInt8)

theorem online_none : (online wholesaleVerdict [] b).1 = if b = 0x53 then [0x53] else [] := by
  by_cases hb : b = 0x53
  · subst hb
    rfl
  · rw [online_mismatch (k := 0) rfl (by simp [mismatch, preamble, magic, hb])]
    simp [hb]

theorem online_S : (online wholesaleVerdict [0x53] b).1 =
    if b = 0x4C then [0x53, 0x4C] else if b = 0x53 then [0x53] else [] := by
  by_cases hb : b = 0x4C
  · subst hb
    rfl
  · rw [online_mismatch (k := 1) rfl (by simp [mismatch, preamble, magic, hb])]
    by_cases hS : b = 0x53 <;> simp [hb, hS]

theorem online_SL : (online wholesaleVerdict [0x53, 0x4C] b).1 =
    if b = 0x56 then [0x53, 0x4C, 0x56] else [] := by
  by_cases hb : b = 0x56
  · subst hb
    rfl
  · rw [online_mismatch (k := 2) rfl (by simp [mismatch, preamble, magic, hb])]
    simp [hb]

theorem online_SLV : (online wholesaleVerdict [0x53, 0x4C, 0x56] b).1 =
    if b = 0x52 then magic else [] := by
  by_cases hb : b = 0x52
  · subst hb
    rfl
  · rw [online_mismatch (k := 3) rfl (by simp [mismatch, preamble, magic, hb])]
    simp [hb]

end

/-- Noise leaves the start of a magic pending, or nothing. -/
theorem noisePending_cases (r : List UInt8) : noisePending r = [] ∨ noisePending r = [0x53] ∨
    noisePending r = [0x53, 0x4C] ∨ noisePending r = [0x53, 0x4C, 0x56] := by
  fun_cases noisePending r <;> simp

theorem noisePending_S (r : List UInt8) : noisePending (0x53 :: r) =
    if noisePending r = [] ∨ noisePending r = [0x53] then [0x53] else [] :=
  if_congr (even_danglingStarts_iff r) rfl rfl

theorem noisePending_L (r : List UInt8) : noisePending (0x4C :: r) =
    if noisePending r = [0x53] then [0x53, 0x4C] else [] := by
  fun_cases noisePending r with
  | case7 r h₁ =>
    cases r with
    | nil => rfl
    | cons x r =>
      have hx : x ≠ 0x53 := fun hx => h₁ r (by rw [hx])
      simp [noisePending, hx]
  | _ => simp [noisePending, *]

theorem noisePending_V (r : List UInt8) : noisePending (0x56 :: r) =
    if noisePending r = [0x53, 0x4C] then [0x53, 0x4C, 0x56] else [] := by
  fun_cases noisePending r with
  | case7 r h₁ h₂ =>
    match r with
    | [] | [x] => simp [noisePending]
    | x :: y :: r =>
      by_cases hx : x = 0x4C
      · have hy : y ≠ 0x53 := fun hy => h₂ r (by rw [hx, hy])
        simp [noisePending, hy]
      · simp [noisePending, hx]
  | _ => simp [noisePending, *]

theorem noisePending_other {b : UInt8} (r : List UInt8) (hS : b ≠ 0x53) (hL : b ≠ 0x4C)
    (hV : b ≠ 0x56) : noisePending (b :: r) = [] := by
  simp [noisePending, hS, hL, hV]

/-- One more byte of noise, when it does not complete a magic. -/
theorem online_noisePending {r : List UInt8} {b : UInt8}
    (h : ¬(noisePending r = [0x53, 0x4C, 0x56] ∧ b = 0x52)) :
    (online wholesaleVerdict (noisePending r) b).1 = noisePending (b :: r) := by
  by_cases hS : b = 0x53
  · subst hS
    rw [noisePending_S]
    rcases noisePending_cases r with hr | hr | hr | hr <;> rw [hr] <;> rfl
  by_cases hL : b = 0x4C
  · subst hL
    rw [noisePending_L]
    rcases noisePending_cases r with hr | hr | hr | hr <;> rw [hr] <;> rfl
  by_cases hV : b = 0x56
  · subst hV
    rw [noisePending_V]
    rcases noisePending_cases r with hr | hr | hr | hr <;> rw [hr] <;> rfl
  rw [noisePending_other r hS hL hV]
  rcases noisePending_cases r with hr | hr | hr | hr <;> rw [hr]
  · simp [online_none, hS]
  · simp [online_S, hL, hS]
  · simp [online_SL, hV]
  · have hR : b ≠ 0x52 := fun hb => h ⟨hr, hb⟩
    simp [online_SLV, hR]

/-- Noise leaving `"SLV"` pending ends in these bytes. -/
theorem of_noisePending_eq_SLV {r : List UInt8} (h : noisePending r = [0x53, 0x4C, 0x56]) :
    ∃ r', r = 0x56 :: 0x4C :: 0x53 :: r' := by
  rw [noisePending.eq_def] at h
  split at h
  · split at h <;> cases h
  · split at h <;> cases h
  · exact ⟨_, rfl⟩
  · cases h

/-- What noise free of the magic leaves pending. -/
theorem pending_noise {n : List UInt8} (h : ∀ i < n.length, ¬magic <+: n.drop i) :
    (Transducer.state slvrParserFeedByte slvrParserInit n).pending = noisePending n.reverse := by
  induction n using List.reverseRecOn with
  | nil => rfl
  | append_singleton n b ih =>
    have hn : ∀ i < n.length, ¬magic <+: n.drop i := fun i hi hm =>
      h i (by simp; omega) (by
        rw [List.drop_append_of_le_length (by omega)]
        exact hm.trans (List.prefix_append _ _))
    have hgood : (Transducer.state slvrParserFeedByte slvrParserInit n).Good :=
      tracks_feedByte.good_state good_init n
    rw [Transducer.state_append, Transducer.state_cons, Transducer.state_nil,
      (feedByte_refines hgood b).pending, ih hn, List.reverse_append, List.reverse_singleton,
      List.singleton_append]
    refine online_noisePending fun ⟨hSLV, hR⟩ => ?_
    -- The magic would end here.
    obtain ⟨r', hr'⟩ := of_noisePending_eq_SLV hSLV
    have hn' : n = r'.reverse ++ [0x53, 0x4C, 0x56] := by
      rw [← List.reverse_reverse n, hr']
      simp
    refine h r'.length (by simp [hn']) ⟨[], ?_⟩
    subst hR
    rw [hn', List.append_assoc, ← List.length_reverse, List.drop_left]
    rfl

section

variable {p : SlvrParser} {f : Frame}

/-- A frame is delivered by a parser with nothing or an `'S'` pending. -/
theorem delivered_of_pending (hp : p.Good) (h : p.pending = [] ∨ p.pending = [0x53]) (m : ℕ) :
    ∃ c, (m + f.bytes.length, c) ∈ Transducer.emits slvrParserFeedByte p m f.bytes ∧
      c.received = f.received := by
  rcases h with h | h
  · have hne : f.bytes ≠ [] := by simp [Frame.bytes, magic]
    obtain ⟨_, _, _, c, hc, hem⟩ := read_rest hp (by rw [h, List.nil_append]) hne
    exact ⟨c, by rw [hem]; simp, hc⟩
  · -- The `'S'` of the frame takes the place of the one pending.
    obtain ⟨t, ht⟩ : ∃ t, f.bytes = 0x53 :: t := ⟨_, rfl⟩
    have href := feedByte_refines hp 0x53
    have hon : online wholesaleVerdict p.pending 0x53 = ([0x53], none) := by rw [h]; rfl
    have hnone : (slvrParserFeedByte p 0x53).2 = none := by
      simpa [hon] using href.received
    have hne : t ≠ [] := by
      rintro rfl
      have := congrArg List.length ht
      rw [f.length_bytes, frameOverhead] at this
      simp at this
      omega
    obtain ⟨_, _, _, c, hc, hem⟩ := read_rest href.good (t := t) (f := f)
      (by rw [href.pending, hon, ht]; rfl) hne
    refine ⟨c, ?_, hc⟩
    rw [ht, Transducer.emits, hnone, hem]
    simp
    omega

/-- It is lost by a parser with nothing pending after its magic: what is then
    delivered, if anything, is shorter. -/
theorem lost_of_pending (hp : p.Good) (m : ℕ)
    (h : Transducer.state (online wholesaleVerdict) p.pending magic = []) :
    ¬∃ c, (m + f.bytes.length, c) ∈ Transducer.emits slvrParserFeedByte p m f.bytes ∧
      c.received = f.received := by
  rintro ⟨c, hmem, hc⟩
  obtain ⟨t, ht⟩ : ∃ t, f.bytes = magic ++ t := ⟨_, List.append_assoc _ _ _⟩
  have hlen : f.bytes.length = 4 + t.length := by rw [ht, List.length_append]; rfl
  have hlong := f.length_bytes
  rw [frameOverhead] at hlong
  rw [ht, Transducer.emits_append, List.mem_append] at hmem
  rcases hmem with hmem | hmem
  · have := (Transducer.lt_of_mem_emits _ hmem).2
    simp only [List.length_append, magic, List.length_cons, List.length_nil] at this
    omega
  · have hgood := tracks_feedByte.good_state hp magic
    have := tracks_feedByte.code_length_le hgood hmem
    rw [code_eq hc, (simulates hp magic).1, h] at this
    simp only [List.length_append, magic, List.length_cons, List.length_nil] at this
    omega

end

/-- A frame after noise free of the magic is delivered, at its last byte, if and
    only if the noise ends in an even number of starts of the magic. -/
theorem resync_iff {n : List UInt8} {f : Frame}
    (h : ∀ i < n.length, ¬magic <+: (n ++ f.bytes).drop i) :
    (∃ c, (n.length + f.bytes.length, c) ∈
        Transducer.emits slvrParserFeedByte slvrParserInit 0 (n ++ f.bytes) ∧
      c.received = f.received) ↔ Even (danglingStarts n.reverse) := by
  have hn : ∀ i < n.length, ¬magic <+: n.drop i := fun i hi hm => h i hi (by
    rw [List.drop_append_of_le_length (by omega)]
    exact hm.trans (List.prefix_append _ _))
  have hgood := tracks_feedByte.good_state good_init n
  have hpend := pending_noise hn
  -- Nothing is delivered at the last byte of the frame while reading the noise.
  have hsplit (c : SlvrFrame) : (n.length + f.bytes.length, c) ∈
      Transducer.emits slvrParserFeedByte slvrParserInit 0 (n ++ f.bytes) ↔
        (n.length + f.bytes.length, c) ∈ Transducer.emits slvrParserFeedByte
          (Transducer.state slvrParserFeedByte slvrParserInit n) n.length f.bytes := by
    rw [Transducer.emits_append, List.mem_append, Nat.zero_add]
    refine or_iff_right fun hmem => ?_
    have := (Transducer.lt_of_mem_emits _ hmem).2
    rw [f.length_bytes, frameOverhead] at this
    omega
  simp only [hsplit]
  rw [even_danglingStarts_iff, ← hpend]
  refine ⟨fun hdel => ?_, fun hok => delivered_of_pending hgood hok n.length⟩
  rcases noisePending_cases n.reverse with hr | hr | hr | hr
  · exact .inl (hpend.trans hr)
  · exact .inr (hpend.trans hr)
  · exact (lost_of_pending hgood n.length (by rw [hpend, hr]; rfl) hdel).elim
  · exact (lost_of_pending hgood n.length (by rw [hpend, hr]; rfl) hdel).elim

/-- The frame is delivered after `"SLSL"`. -/
theorem resync_iff_slsl :
    ∃ c, (4 + pingFrame.bytes.length, c) ∈ Transducer.emits slvrParserFeedByte slvrParserInit 0
        ([0x53, 0x4C, 0x53, 0x4C] ++ pingFrame.bytes) ∧
      c.received = pingFrame.received :=
  (resync_iff (by decide +kernel)).2 (by decide)

/-- The frame is lost after `"SL"`. -/
theorem frame_lost_after_sl :
    (∀ i < [0x53, 0x4C].length, ¬magic <+: ([0x53, 0x4C] ++ pingFrame.bytes).drop i) ∧
      Transducer.emits slvrParserFeedByte slvrParserInit 0 ([0x53, 0x4C] ++ pingFrame.bytes) =
        [] := by
  constructor <;> decide +kernel

/-! ## Recovery -/

/-- Bytes without an `'S'` go on with what is pending, or leave nothing pending. -/
theorem pending_without_S {p : SlvrParser} (hp : p.Good) {t : List UInt8} (ht : 0x53 ∉ t) :
    (Transducer.state slvrParserFeedByte p t).pending = [] ∨
      (p.pending ≠ [] ∧ (Transducer.state slvrParserFeedByte p t).pending = p.pending ++ t) := by
  induction t using List.reverseRecOn with
  | nil =>
    by_cases hnil : p.pending = []
    · exact .inl hnil
    · exact .inr ⟨hnil, (List.append_nil _).symm⟩
  | append_singleton t b ih =>
    have hb : b ≠ 0x53 := fun hb => ht (by simp [hb])
    have hgood := tracks_feedByte.good_state hp t
    have hpend := (feedByte_refines hgood b).pending
    rw [Transducer.state_append, Transducer.state_cons, Transducer.state_nil, hpend]
    rcases ih fun hS => ht (List.mem_append_left _ hS) with hnil | ⟨hne, hkept⟩
    · rw [hnil, online_none, if_neg hb]
      exact .inl rfl
    rw [hkept]
    have hq := head_pending hgood
    rw [hkept] at hq
    cases h : head (p.pending ++ t ++ [b]) with
    | incomplete => exact .inr ⟨hne, by rw [online_incomplete h, List.append_assoc]⟩
    | frame f => exact .inl (by rw [online_frame hq h])
    | mismatch | tooLong | badCrc =>
      refine .inl ?_
      rw [online_rejected hq (by rw [h]; nofun) (by rw [h]; nofun), if_neg (by simp [hb])]

/-- After any stream, as many bytes as the longest frame has, without an `'S'`, leave the parser
    between frames: the next frame is delivered. -/
theorem recovers_after (s : List UInt8) {t : List UInt8} (ht : 0x53 ∉ t)
    (hlen : frameOverhead + maxPayloadLen ≤ t.length) :
    (Transducer.state slvrParserFeedByte slvrParserInit (s ++ t)).state = .magic0 ∧
      ∀ f : Frame, ∃ c, c.received = f.received ∧ Transducer.outputs slvrParserFeedByte
        (Transducer.state slvrParserFeedByte slvrParserInit (s ++ t)) f.bytes = [c] := by
  have hgood := tracks_feedByte.good_state good_init s
  have hgood' := tracks_feedByte.good_state hgood t
  rw [Transducer.state_append]
  have hnil : (Transducer.state slvrParserFeedByte
      (Transducer.state slvrParserFeedByte slvrParserInit s) t).pending = [] := by
    refine (pending_without_S hgood ht).resolve_right fun ⟨_, hkept⟩ => ?_
    -- A candidate that is not told yet is shorter than that.
    have hlt := length_lt_of_incomplete (head_pending hgood')
    rw [hkept, List.length_append] at hlt
    omega
  refine ⟨SlvrParser.state_eq_of_pending hnil, fun f => ?_⟩
  have hne : f.bytes ≠ [] := by simp [Frame.bytes, magic]
  obtain ⟨_, _, _, c, hc, hem⟩ := read_rest (f := f) hgood' (by rw [hnil, List.nil_append]) hne
  exact ⟨c, hc, by rw [← Transducer.emits_map_snd _ _ 0, hem]; rfl⟩

/-- The start of a frame of the greatest length, then zeros, as many as the longest frame has
    bytes: the frame is not finished with them, and the next one is delivered. -/
theorem recovers_after_zeros : ∃ c, c.received = pingFrame.received ∧
    Transducer.outputs slvrParserFeedByte (Transducer.state slvrParserFeedByte slvrParserInit
      ((magic ++ [1, 0x09, 0, 1, 2, 0]) ++ List.replicate 524 0)) pingFrame.bytes = [c] :=
  (recovers_after (magic ++ [1, 0x09, 0, 1, 2, 0]) (t := List.replicate 524 0)
    (fun hS => absurd (List.eq_of_mem_replicate hS) (by decide))
    (List.length_replicate.symm ▸ Nat.le_refl _)).2 pingFrame

end SliverOS.Firmware
