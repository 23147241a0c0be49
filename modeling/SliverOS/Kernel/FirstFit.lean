import SliverOS.Kernel.ArenaAccounting

/-!
# The first fit, from the headers

`my_malloc` read off the headers in memory: it allocates whenever a free block is large
enough for the size rounded up, in the first such block, and otherwise leaves the block list
as it is and counts a failure (`myMalloc_first_fit`). The test of the size against the arena
refuses nothing that a block could hold.
-/

namespace SliverOS

open Heap Platform

namespace MemoryManager

variable {pl : Platform} {s : MemoryManager} {m : Memory} {bs pre post : List Block} {b : Block}
  {prev p q size : ℕ}

/-- The block list: the addresses of the headers, and the headers. -/
def blockList (pl : Platform) (s : MemoryManager) : List (ℕ × MkMemBlock) :=
  (s.blocks pl).map fun p => (p, pl.header s.mem p)

/-- The block at `p` is free, and large enough for a size rounded up. -/
def Accommodates (pl : Platform) (s : MemoryManager) (size p : ℕ) : Prop :=
  (pl.header s.mem p).isFree = 1 ∧ align size ≤ (pl.header s.mem p).size

instance (pl : Platform) (s : MemoryManager) (size p : ℕ) :
    Decidable (Accommodates pl s size p) := inferInstanceAs (Decidable (_ ∧ _))

theorem addrs_append (p : ℕ) (xs ys : List Block) :
    addrs pl p (xs ++ ys) = addrs pl p xs ++ addrs pl (p + span pl.headerSize xs) ys := by
  induction xs generalizing p with
  | nil => simp [addrs, span]
  | cons b xs ih => simp [addrs, span, ih, Nat.add_assoc]

theorem le_of_mem_addrs (h : q ∈ addrs pl p bs) : p ≤ q := by
  induction bs generalizing p with
  | nil => simp [addrs] at h
  | cons b bs ih =>
    rcases List.mem_cons.1 h with rfl | h
    · exact Nat.le_refl _
    · have := ih h
      omega

/-- A block is large enough when the header says so. -/
theorem accommodates_iff (h : pl.Holds s.mem prev p b) :
    Accommodates pl s size p ↔ b.fits (align size) := by
  rw [Accommodates, h.isFree, h.size, Block.fits]
  cases b.free <;> simp

/-- A block that is large enough is one of the list that fits. -/
theorem Represents.exists_fits (h : Represents pl s bs) (hp : p ∈ s.blocks pl)
    (hfits : Accommodates pl s size p) : ∃ b ∈ bs, b.fits (align size) := by
  rw [h.blocks_eq] at hp
  obtain ⟨b, hb, _, hhold⟩ := exists_of_mem_addrs h.chain hp
  exact ⟨b, hb, (accommodates_iff hhold).1 hfits⟩

/-- The first fit has the lowest address of the blocks large enough. -/
theorem Represents.isLeast_firstFit (h : Represents pl s bs)
    (hfit : firstFit? (align size) bs = some (pre, b, post)) :
    IsLeast {p | p ∈ s.blocks pl ∧ Accommodates pl s size p}
      (pl.arenaStart + span pl.headerSize pre) := by
  obtain ⟨rfl, hfits⟩ := firstFit?_eq_some hfit
  obtain ⟨hpre, hb, _⟩ := chain_append.1 h.chain
  have hblocks := h.blocks_eq
  rw [addrs_append, addrs] at hblocks
  refine ⟨⟨?_, (accommodates_iff hb).2 hfits⟩, ?_⟩
  · rw [hblocks]
    exact List.mem_append_right _ (List.mem_cons_self ..)
  rintro q ⟨hq, hlarge⟩
  rw [hblocks] at hq
  rcases List.mem_append.1 hq with hq | hq
  · -- A block before the first fit does not fit.
    obtain ⟨c, hc, _, hhold⟩ := exists_of_mem_addrs hpre hq
    exact absurd ((accommodates_iff hhold).1 hlarge) (not_fits_of_firstFit? hfit c hc)
  rcases List.mem_cons.1 hq with rfl | hq
  · exact Nat.le_refl _
  · have := le_of_mem_addrs hq
    omega

/-- A size that a block could hold is in range. -/
theorem Represents.size_le (h : Represents pl s bs) (hb : b ∈ bs) (hfits : b.fits (align size)) :
    size ≤ arenaSize - pl.headerSize := by
  obtain ⟨_, hle⟩ : b.free = true ∧ align size ≤ b.size := by simpa [Block.fits] using hfits
  have halign := le_align size
  obtain ⟨pre, post, rfl⟩ := List.append_of_mem hb
  have hspan := h.valid.span_eq
  simp only [span_append, span] at hspan
  omega

/-- A failed allocation leaves the memory. -/
theorem mem_myMalloc_of_null (h : s.initialized = true) (hnull : (s.myMalloc pl size).2 = 0) :
    (s.myMalloc pl size).1.mem = s.mem := by
  have hsize := pl.headerSize_eq
  have hinit : (if s.initialized = true then s else s.mkMemoryInit pl) = s := if_pos h
  rw [myMalloc, hinit] at hnull ⊢
  by_cases hrange : size = 0 ∨ arenaSize - pl.headerSize < size
  · rw [if_pos hrange]
  rw [if_neg hrange] at hnull ⊢
  cases hsearch : search pl s.mem (align size) arenaSize s.headBlock with
  | found curr =>
    simp only [hsearch] at hnull
    omega
  | corrupted curr | exhausted =>
    simp only [hsearch]
    rfl

/-- An allocation succeeds when some free block is large enough, in the first one; and
    otherwise it changes no block, and is counted as failed. -/
theorem myMalloc_first_fit {live : ℕ → Option ℕ} (h : Reachable pl s live) (size : ℕ) :
    ((s.myMalloc pl size).2 ≠ 0 ↔ 1 ≤ size ∧ ∃ p ∈ s.blocks pl, Accommodates pl s size p) ∧
      ((s.myMalloc pl size).2 ≠ 0 →
        ∃ p, IsLeast {p | p ∈ s.blocks pl ∧ Accommodates pl s size p} p ∧
          (s.myMalloc pl size).2 = p + pl.headerSize) ∧
      ((s.myMalloc pl size).2 = 0 →
        (s.myMalloc pl size).1.blockList pl = s.blockList pl ∧
          (s.myMalloc pl size).1.stats.failedAllocations = s.stats.failedAllocations + 1) := by
  obtain ⟨bs, hbs, -⟩ := h.inv
  have hpos := pl.arenaStart_pos
  rcases myMalloc_spec hbs size with ⟨hfail, hnull, hnew⟩ | ⟨pre, b, post, hsize, hfit, hret, _⟩
  · refine ⟨iff_of_false (not_not.2 hnull) ?_, fun hne => absurd hnull hne, fun _ => ?_⟩
    · rintro ⟨hone, p, hp, hlarge⟩
      obtain ⟨b, hb, hfits⟩ := hbs.exists_fits hp hlarge
      have hrange := hbs.size_le hb hfits
      rcases hfail with hzero | hlong | hnone
      · omega
      · omega
      · exact firstFit?_eq_none_iff.1 hnone b hb hfits
    · have hmem := mem_myMalloc_of_null hbs.initialized hnull
      refine ⟨by rw [blockList, blockList, hnew.blocks_eq, hbs.blocks_eq, hmem], ?_⟩
      rcases myMalloc_stats hbs size with ⟨_, _, hstats⟩ | ⟨_, _, _, _, _, _, hne, _⟩
      · rw [hstats]
      · exact absurd hnull hne
  · have hleast := hbs.isLeast_firstFit hfit
    have hne : (s.myMalloc pl size).2 ≠ 0 := by omega
    exact ⟨iff_of_true hne ⟨hsize, _, hleast.1⟩, fun _ => ⟨_, hleast, hret⟩,
      fun hnull => absurd hnull hne⟩

/-- Ten bytes, after a payload of 100 bytes. -/
theorem myMalloc_first_fit_second :
    ∃ p, IsLeast {p | p ∈ ((zeroed.mkMemoryInit esp32).myMalloc esp32 100).1.blocks esp32 ∧
        Accommodates esp32 ((zeroed.mkMemoryInit esp32).myMalloc esp32 100).1 10 p} p ∧
      (((zeroed.mkMemoryInit esp32).myMalloc esp32 100).1.myMalloc esp32 10).2 =
        p + esp32.headerSize :=
  (myMalloc_first_fit (.malloc (.init zeroed) 100) 10).2.1 (by decide +kernel)

end MemoryManager

end SliverOS
