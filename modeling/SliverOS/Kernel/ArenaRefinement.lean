import SliverOS.Kernel.ArenaChain

/-!
# The arena refines a heap of blocks

The allocator has the headers of a list of blocks (`Represents`), which its
operations change as those of a heap of blocks: `my_malloc` is an allocation in
the first block that fits (`myMalloc_spec`), `my_free` of an allocated payload a
release (`myFree_spec`), and bytes stored in an allocated payload leave the
blocks as they are (`Represents.store`).
-/

namespace SliverOS

open Bytes Heap Platform

namespace MemoryManager

variable {pl : Platform} {m : Memory} {prev p n : ℕ} {bs pre post : List Block} {b : Block}

/-- The allocator is initialised and its headers are those of the blocks `bs`. -/
structure Represents (pl : Platform) (s : MemoryManager) (bs : List Block) : Prop where
  initialized : s.initialized = true
  headBlock : s.headBlock = pl.arenaStart
  chain : pl.Chain s.mem 0 pl.arenaStart bs
  valid : Valid pl.headerSize 8 arenaSize bs

theorem represents_mkMemoryInit (pl : Platform) (s : MemoryManager) :
    Represents pl (s.mkMemoryInit pl) (initial pl.headerSize arenaSize) where
  initialized := rfl
  headBlock := rfl
  chain := by
    have hsize := pl.headerSize_eq
    have hpos : 0 < 256 ^ pl.ptrBytes := Nat.pow_pos (by decide)
    have hself : pl.header (pl.modify s.mem pl.arenaStart fun _ =>
        ⟨blockMagicFree, arenaSize - pl.headerSize, 0, 0, 1, 0⟩) pl.arenaStart =
          ⟨blockMagicFree, arenaSize - pl.headerSize, 0, 0, 1, 0⟩ :=
      header_modify_self ⟨magic_lt true, by simp only [arenaSize]; omega, hpos, hpos, flag_lt true,
        flag_lt false⟩
    have hlink : pl.link (pl.arenaStart + pl.headerSize + (arenaSize - pl.headerSize)) = 0 :=
      if_pos (by simp only [arenaEnd, arenaSize]; omega)
    refine ⟨⟨?_, ?_, ?_, ?_, ?_⟩, trivial⟩ <;> rw [mkMemoryInit, hself]
    · rfl
    · exact hlink.symm
    · rfl
  valid := valid_initial _ dvd_headerSize (by decide) (by
    have hsize := pl.headerSize_eq
    simp only [arenaSize]
    omega)

/-! ## Searching -/

/-- The search of `my_malloc` finds the first block that fits. -/
theorem search_eq {fuel : ℕ} (h : pl.Chain m prev p bs) (hp : pl.arenaStart ≤ p)
    (hend : p + span pl.headerSize bs = pl.arenaEnd) (hfuel : bs.length < fuel) :
    search pl m n fuel (pl.link p) =
      match firstFit? n bs with
      | some (pre, _, _) => .found (p + span pl.headerSize pre)
      | none => .exhausted := by
  have hpos := pl.arenaStart_pos
  have hsize := pl.headerSize_eq
  induction bs generalizing prev p fuel with
  | nil =>
    cases fuel with
    | zero => rfl
    | succ fuel =>
      have hlink : pl.link p = 0 := if_pos hend
      rw [search, hlink]
      rfl
  | cons b bs ih =>
    obtain ⟨hb, hbs⟩ := h
    simp only [span] at hend
    obtain ⟨fuel, rfl⟩ := Nat.exists_eq_succ_of_ne_zero (Nat.ne_zero_of_lt hfuel)
    have hlink : pl.link p = p := if_neg (by omega)
    have hmagic : ¬((pl.header m p).magic ≠ blockMagicFree ∧
        (pl.header m p).magic ≠ blockMagicAlloc) := by
      rw [hb.magic]
      cases b.free <;> simp
    -- The test of the loop is that of the first fit.
    have hfits : ((pl.header m p).isFree ≠ 0 ∧ n ≤ (pl.header m p).size) ↔ b.fits n = true := by
      rw [hb.isFree, hb.size, Block.fits]
      cases b.free <;> simp
    rw [search, hlink, if_neg (by omega), firstFit?]
    simp only [hmagic, if_false, hfits]
    by_cases hfit : b.fits n = true
    · rw [if_pos hfit, if_pos hfit]
      rfl
    · rw [if_neg hfit, if_neg hfit, hb.next, ih hbs (by omega) (by omega)
        (by simpa using hfuel)]
      cases firstFit? n bs with
      | none => rfl
      | some r => simp only [Option.map_some, span, Nat.add_assoc]

/-! ## Allocating -/

theorem Represents.end_eq {s : MemoryManager} (h : Represents pl s bs) :
    pl.arenaStart + span pl.headerSize bs = pl.arenaEnd := by
  rw [h.valid.span_eq]
  rfl

theorem Represents.length_lt {s : MemoryManager} (h : Represents pl s bs) :
    bs.length < arenaSize := by
  have := length_mul_le_span pl.headerSize bs
  have hspan := h.valid.span_eq
  have hsize := pl.headerSize_eq
  simp only [arenaSize] at hspan ⊢
  rcases hsize with h | h <;> rw [h] at this hspan <;> omega

theorem Represents.of_mem_eq {s t : MemoryManager} (h : Represents pl s bs) (hm : t.mem = s.mem)
    (hh : t.headBlock = s.headBlock) (hi : t.initialized = s.initialized) :
    Represents pl t bs :=
  ⟨hi ▸ h.initialized, hh ▸ h.headBlock, hm ▸ h.chain, h.valid⟩

/-- A change of the headers from the block after `pre` on. -/
theorem Represents.rewrite {s : MemoryManager} {bs' : List Block}
    (h : Represents pl s (pre ++ bs)) {m' : Memory}
    (hr : Rewritten pl s.mem m' (pl.lastAddr 0 pl.arenaStart pre)
      (pl.arenaStart + span pl.headerSize pre) bs')
    (hv : Valid pl.headerSize 8 arenaSize (pre ++ bs')) {t : MemoryManager} (hm : t.mem = m')
    (hh : t.headBlock = s.headBlock) (hi : t.initialized = s.initialized) :
    Represents pl t (pre ++ bs') :=
  ⟨hi ▸ h.initialized, hh ▸ h.headBlock, hm ▸ h.chain.rewrite hr, hv⟩

theorem dvd_align (n : ℕ) : 8 ∣ align n := Nat.dvd_mul_left 8 _

theorem le_align (n : ℕ) : n ≤ align n := by
  simp only [align]
  omega

/-- The search of `my_malloc` from the first block on. -/
theorem Represents.search_eq {s : MemoryManager} (h : Represents pl s bs) (n : ℕ) :
    search pl s.mem n arenaSize s.headBlock =
      match firstFit? n bs with
      | some (pre, _, _) => .found (pl.arenaStart + span pl.headerSize pre)
      | none => .exhausted := by
  have hstart : pl.link pl.arenaStart = pl.arenaStart := if_neg (by simp [arenaEnd, arenaSize])
  rw [h.headBlock, ← MemoryManager.search_eq h.chain (Nat.le_refl _) h.end_eq h.length_lt, hstart]

/-- `my_malloc` refines an allocation: it fails, changing no block, when the size
    is out of range or no block fits, and otherwise returns the payload placed
    in the first block that fits. -/
theorem myMalloc_spec {s : MemoryManager} (h : Represents pl s bs) (size : ℕ) :
    ((size = 0 ∨ arenaSize - pl.headerSize < size ∨ firstFit? (align size) bs = none) ∧
      (s.myMalloc pl size).2 = 0 ∧ Represents pl (s.myMalloc pl size).1 bs) ∨
    ∃ pre b post, 0 < size ∧ firstFit? (align size) bs = some (pre, b, post) ∧
      (s.myMalloc pl size).2 = pl.arenaStart + span pl.headerSize pre + pl.headerSize ∧
      Represents pl (s.myMalloc pl size).1
        (pre ++ (place pl.headerSize minPayload (align size) b ++ post)) := by
  have hsearch := h.search_eq (align size)
  have hinit : (if s.initialized = true then s else s.mkMemoryInit pl) = s := if_pos h.initialized
  rw [myMalloc, hinit]
  by_cases hrange : size = 0 ∨ arenaSize - pl.headerSize < size
  · rw [if_pos hrange]
    exact .inl ⟨by tauto, rfl, h.of_mem_eq rfl rfl rfl⟩
  rw [if_neg hrange]
  cases hfit : firstFit? (align size) bs with
  | none =>
    rw [hfit] at hsearch
    simp only [hsearch]
    exact .inl ⟨.inr (.inr trivial), trivial, h.of_mem_eq rfl rfl rfl⟩
  | some r =>
    obtain ⟨pre, b, post⟩ := r
    obtain ⟨rfl, hb⟩ := firstFit?_eq_some hfit
    rw [hfit] at hsearch
    simp only [hsearch]
    refine .inr ⟨pre, b, post, by omega, rfl, rfl, ?_⟩
    obtain ⟨hfree, hle⟩ : b.free = true ∧ align size ≤ b.size := by simpa [Block.fits] using hb
    have hend := h.end_eq
    rw [span_append, ← Nat.add_assoc] at hend
    have hsplit := chain_split (chain_append.1 h.chain).2 hle (Nat.le_add_right _ _) hend
    -- The block is split if there is room for another one, and marked.
    have hplace : Rewritten pl s.mem (pl.modify (split pl s.mem
        (pl.arenaStart + span pl.headerSize pre) (align size))
          (pl.arenaStart + span pl.headerSize pre)
            ({ · with magic := blockMagicAlloc, isFree := 0 }))
        (pl.lastAddr 0 pl.arenaStart pre) (pl.arenaStart + span pl.headerSize pre)
        (place pl.headerSize minPayload (align size) b ++ post) := by
      rw [place]
      split at hsplit <;> rename_i hroom
      · rw [if_pos hroom]
        exact hsplit.trans (chain_mark false hsplit.1)
      · rw [if_neg hroom]
        exact hsplit.trans (chain_mark false hsplit.1)
    have hvalid := h.valid.place pl.headerSize dvd_headerSize (dvd_align size)
      (Nat.lt_of_lt_of_le (by omega) (le_align size)) (show 0 < minPayload by decide) hb
    exact h.rewrite hplace hvalid rfl rfl rfl

/-! ## Releasing -/

theorem lastAddr_concat (prev p : ℕ) (bs : List Block) (b : Block) :
    pl.lastAddr prev p (bs ++ [b]) = p + span pl.headerSize bs := by
  induction bs generalizing prev p with
  | nil => rfl
  | cons c bs ih => simp only [List.cons_append, lastAddr, ih, span, Nat.add_assoc]

/-- The forward coalescing takes the block after, if it is free. -/
theorem coalesceNext_cases (h : pl.Chain m prev p (b :: post)) (hp : pl.arenaStart ≤ p)
    (hend : p + span pl.headerSize (b :: post) = pl.arenaEnd) :
    (coalesceNext pl m p = m ∧ absorbFirst pl.headerSize post = (0, post)) ∨
      ∃ c post', post = c :: post' ∧
        coalesceNext pl m p = coalesce pl m p (p + pl.headerSize + b.size) ∧
          absorbFirst pl.headerSize post = (pl.headerSize + c.size, post') := by
  have hpos := pl.arenaStart_pos
  have hsize := pl.headerSize_eq
  rw [coalesceNext, nextIsFree]
  rw [h.1.next]
  -- The last block has no next one.
  cases post with
  | nil =>
    have hlink : pl.link (p + pl.headerSize + b.size) = 0 :=
      if_pos (by simpa [span, Nat.add_assoc] using hend)
    rw [hlink, if_neg (by simp)]
    exact .inl ⟨rfl, rfl⟩
  | cons c post =>
    have hlink : pl.link (p + pl.headerSize + b.size) = p + pl.headerSize + b.size :=
      if_neg (by simp only [span] at hend; omega)
    rw [hlink, h.2.1.isFree]
    cases hc : c.free with
    | true =>
      rw [if_pos (by simp; omega)]
      exact .inr ⟨c, post, rfl, rfl, by simp [absorbFirst, hc]⟩
    | false =>
      rw [if_neg (by simp)]
      exact .inl ⟨rfl, by simp [absorbFirst, hc]⟩

/-- A free block joined with the one after it, if that is free. -/
theorem chain_coalesceNext (h : pl.Chain m prev p (b :: post)) (hp : pl.arenaStart ≤ p)
    (hend : p + span pl.headerSize (b :: post) = pl.arenaEnd) :
    Rewritten pl m (coalesceNext pl m p) prev p
      (⟨b.size + (absorbFirst pl.headerSize post).1, b.free⟩ ::
        (absorbFirst pl.headerSize post).2) := by
  rcases coalesceNext_cases h hp hend with ⟨heq, habsorb⟩ | ⟨c, post', rfl, heq, habsorb⟩
  · rw [heq, habsorb]
    exact ⟨h, fun q _ => rfl⟩
  · rw [heq, habsorb]
    exact chain_coalesce h hp hend

/-- The backward coalescing takes the block before, if it is free. -/
theorem coalescePrev_cases (h : pl.Chain m 0 pl.arenaStart (pre ++ b :: post)) :
    (coalescePrev pl m (pl.arenaStart + span pl.headerSize pre) = m ∧
        absorbLast pl.headerSize pre = (0, pre)) ∨
      ∃ pre' a, pre = pre' ++ [a] ∧ a.free = true ∧
        coalescePrev pl m (pl.arenaStart + span pl.headerSize pre) =
          coalesce pl m (pl.arenaStart + span pl.headerSize pre')
            (pl.arenaStart + span pl.headerSize pre' + pl.headerSize + a.size) ∧
        absorbLast pl.headerSize pre = (a.size + pl.headerSize, pre') := by
  have hpos := pl.arenaStart_pos
  rw [coalescePrev, prevIsFree]
  rw [(chain_append.1 h).2.1.prev]
  rcases absorbLast_cases pl.headerSize pre with ⟨hnone, hlast⟩ | ⟨pre, a, rfl, ha, hsome⟩
  · -- There is no block before, or it is allocated.
    refine .inl ⟨if_neg ?_, hnone⟩
    cases pre using List.reverseRecOn with
    | nil => simp [lastAddr]
    | append_singleton pre a =>
      rw [lastAddr_concat]
      rw [List.append_assoc] at h
      rw [(chain_append.1 h).2.1.isFree, hlast a (by simp)]
      simp
  · refine .inr ⟨pre, a, rfl, ha, ?_, hsome⟩
    rw [lastAddr_concat, span_append]
    rw [List.append_assoc] at h
    have haddr : pl.arenaStart + (span pl.headerSize pre + span pl.headerSize [a]) =
        pl.arenaStart + span pl.headerSize pre + pl.headerSize + a.size := by
      simp only [span]
      omega
    rw [(chain_append.1 h).2.1.isFree, ha, if_pos (by simp; omega), haddr]

/-- A free block joined with the one before it, if that is free. -/
theorem chain_coalescePrev (h : pl.Chain m 0 pl.arenaStart (pre ++ b :: post))
    (hb : b.free = true)
    (hend : pl.arenaStart + span pl.headerSize (pre ++ b :: post) = pl.arenaEnd) :
    pl.Chain (coalescePrev pl m (pl.arenaStart + span pl.headerSize pre)) 0 pl.arenaStart
      ((absorbLast pl.headerSize pre).2 ++
        ⟨(absorbLast pl.headerSize pre).1 + b.size, true⟩ :: post) := by
  obtain ⟨size, free⟩ := b
  obtain rfl : free = true := hb
  rcases coalescePrev_cases h with ⟨heq, habsorb⟩ | ⟨pre, a, rfl, ha, heq, habsorb⟩
  · rw [heq, habsorb, Nat.zero_add]
    exact h
  · rw [heq, habsorb]
    rw [List.append_assoc] at h hend
    rw [span_append, ← Nat.add_assoc] at hend
    have hcoalesce := chain_coalesce (chain_append.1 h).2 (Nat.le_add_right _ _) hend
    rw [ha, ← Nat.add_assoc] at hcoalesce
    exact h.rewrite hcoalesce

/-- `my_free` of the payload of an allocated block passes all of the checks. -/
theorem Represents.myFree_eq {s : MemoryManager} (h : Represents pl s (pre ++ b :: post))
    (hb : b.free = false) :
    s.myFree pl (pl.arenaStart + span pl.headerSize pre + pl.headerSize) =
      s.freeBlock pl (pl.arenaStart + span pl.headerSize pre) := by
  have hpos := pl.arenaStart_pos
  have hend := h.end_eq
  have hhead := (chain_append.1 h.chain).2.1
  have hbpos := h.valid.pos b (by simp)
  have halign : 8 ∣ pl.arenaStart + span pl.headerSize pre + pl.headerSize :=
    Nat.dvd_add (Nat.dvd_add pl.arenaStart_aligned (dvd_span pl.headerSize dvd_headerSize
      fun c hc => h.valid.dvd c (by simp [hc]))) dvd_headerSize
  simp only [span_append, span] at hend
  rw [myFree, if_neg (by simp [h.initialized]; omega), if_neg (by omega), if_neg (by omega),
    Nat.add_sub_cancel]
  simp only [hhead.magic, hhead.isFree, hb]
  rfl

/-- `my_free` of the payload of an allocated block refines its release. -/
theorem myFree_spec {s : MemoryManager} (h : Represents pl s (pre ++ b :: post))
    (hb : b.free = false) :
    Represents pl (s.myFree pl (pl.arenaStart + span pl.headerSize pre + pl.headerSize))
      (release pl.headerSize pre b post) := by
  have hend := h.end_eq
  rw [h.myFree_eq hb]
  refine ⟨h.initialized, h.headBlock, ?_, h.valid.release pl.headerSize dvd_headerSize hb⟩
  rw [span_append, ← Nat.add_assoc] at hend
  have hmark := chain_mark true (chain_append.1 h.chain).2
  have hnext := chain_coalesceNext hmark.1 (Nat.le_add_right _ _) hend
  have hjoined := h.chain.rewrite (hmark.trans hnext)
  have hprev := chain_coalescePrev hjoined rfl (by
    have := span_absorbFirst pl.headerSize post
    simp only [span_append, span] at hend ⊢
    omega)
  rw [← Nat.add_assoc] at hprev
  exact hprev

/-! ## Storing -/

/-- The bytes of an allocated payload are not those of a header. -/
theorem Represents.store {s : MemoryManager} (h : Represents pl s (pre ++ b :: post)) {a : ℕ}
    {data : List UInt8} (ha : pl.arenaStart + span pl.headerSize pre + pl.headerSize ≤ a)
    (hend : a + data.length ≤
      pl.arenaStart + span pl.headerSize pre + pl.headerSize + b.size) :
    Represents pl { s with mem := blit s.mem a data } (pre ++ b :: post) := by
  obtain ⟨hb, hpost⟩ := (chain_append.1 h.chain).2
  have hstored : Rewritten pl s.mem (blit s.mem a data) (pl.lastAddr 0 pl.arenaStart pre)
      (pl.arenaStart + span pl.headerSize pre) (b :: post) :=
    ⟨⟨hb.congr (header_blit_of_apart (by omega)), hpost.congr fun q hq _ =>
      header_blit_of_apart (by omega)⟩, fun q hq => header_blit_of_apart (by omega)⟩
  exact h.rewrite hstored h.valid rfl rfl rfl

end MemoryManager

end SliverOS
