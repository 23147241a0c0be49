import SliverOS.Kernel.ArenaInvariant

/-!
# The counters of the arena

The counters of `s_stats` compared with the headers: the bytes used are those of
the allocated payloads after any run (`Reachable.usedBytes_eq`), and their peak is
the most there were (`isGreatest_peak`).

The free bytes are not those of the free payloads once a block was split: the
header of the new block is not taken from them, while a header is added to them
when blocks are joined. They are up to there, so that the counters agree with the
headers at every point of a run exactly when no call of it splits a block
(`balanced_iff`).
-/

namespace SliverOS

open Bytes Heap Platform

namespace MemoryManager

variable {pl : Platform} {s : MemoryManager} {m : Memory} {bs pre post : List Block} {b : Block}
  {live : ℕ → Option ℕ} {p prev size : ℕ}

/-! ## The headers counted -/

/-- The payload bytes of the blocks marked with a flag, by their headers. -/
def payloadBytes (pl : Platform) (s : MemoryManager) (isFree : ℕ) : ℕ :=
  (((s.blocks pl).filter fun p => (pl.header s.mem p).isFree == isFree).map fun p =>
    (pl.header s.mem p).size).sum

/-- The headers of a chain, counted by its blocks. -/
theorem sum_addrs (h : pl.Chain m prev p bs) (free : Bool) :
    (((addrs pl p bs).filter fun p => (pl.header m p).isFree == free.toNat).map fun p =>
      (pl.header m p).size).sum = ((bs.filter fun b => b.free == free).map Block.size).sum := by
  induction bs generalizing prev p with
  | nil => rfl
  | cons b bs ih =>
    obtain ⟨hb, hbs⟩ := h
    have hflag : ((pl.header m p).isFree == free.toNat) = (b.free == free) := by
      rw [hb.isFree]
      cases b.free <;> cases free <;> rfl
    rw [addrs, List.filter_cons, List.filter_cons, hflag]
    split
    · rw [List.map_cons, List.map_cons, List.sum_cons, List.sum_cons, ih hbs, hb.size]
    · exact ih hbs

theorem Represents.payloadBytes_alloc (h : Represents pl s bs) :
    s.payloadBytes pl 0 = used bs := by
  rw [payloadBytes, h.blocks_eq, used]
  simpa using sum_addrs h.chain false

theorem Represents.payloadBytes_free (h : Represents pl s bs) :
    s.payloadBytes pl 1 = unused bs := by
  rw [payloadBytes, h.blocks_eq, unused]
  simpa using sum_addrs h.chain true

/-! ## What the operations count -/

theorem Represents.used_lt (h : Represents pl s bs) : used bs < 256 ^ pl.ptrBytes := by
  have hle := used_le_span pl.headerSize bs
  have hend := h.end_eq
  have hlt := pl.arenaEnd_lt
  simp only [arenaEnd] at hend
  omega

/-- `my_malloc` counts the payload placed, or none. -/
theorem myMalloc_stats (h : Represents pl s bs) (size : ℕ) :
    ((s.myMalloc pl size).2 = 0 ∧ Represents pl (s.myMalloc pl size).1 bs ∧
      (s.myMalloc pl size).1.stats =
        { s.stats with failedAllocations := s.stats.failedAllocations + 1 }) ∨
    ∃ pre b post, 0 < size ∧ size ≤ arenaSize - pl.headerSize ∧
      firstFit? (align size) bs = some (pre, b, post) ∧
      (s.myMalloc pl size).2 ≠ 0 ∧
      Represents pl (s.myMalloc pl size).1
        (pre ++ (place pl.headerSize minPayload (align size) b ++ post)) ∧
      (s.myMalloc pl size).1.stats =
        countAlloc pl s.stats (placed pl.headerSize minPayload (align size) b) := by
  have hpos := pl.arenaStart_pos
  have hsearch := h.search_eq (align size)
  have hinit : (if s.initialized = true then s else s.mkMemoryInit pl) = s := if_pos h.initialized
  rcases myMalloc_spec h size with ⟨hfail, hret, hnew⟩ | ⟨pre, b, post, hsize, hfit, hret, hnew⟩
  · refine .inl ⟨hret, hnew, ?_⟩
    rw [myMalloc, hinit]
    by_cases hrange : size = 0 ∨ arenaSize - pl.headerSize < size
    · rw [if_pos hrange]
    · rw [if_neg hrange]
      have hnone : firstFit? (align size) bs = none := by tauto
      rw [hnone] at hsearch
      simp only [hsearch]
      rfl
  · by_cases hrange : size = 0 ∨ arenaSize - pl.headerSize < size
    · rw [myMalloc, hinit, if_pos hrange] at hret
      simp only at hret
      omega
    refine .inr ⟨pre, b, post, hsize, by omega, hfit, by omega, hnew, ?_⟩
    -- The size counted is the one in the header of the block allocated.
    have hhead : (pl.header (s.myMalloc pl size).1.mem
        (pl.arenaStart + span pl.headerSize pre)).size =
          placed pl.headerSize minPayload (align size) b := by
      have hchain := (chain_append.1 hnew.chain).2
      rw [placed]
      rw [place] at hchain
      split at hchain <;> rename_i hroom
      · rw [if_pos hroom, hchain.1.size]
      · rw [if_neg hroom, hchain.1.size]
    have hstats : (s.myMalloc pl size).1.stats = countAlloc pl s.stats (pl.header
        (s.myMalloc pl size).1.mem (pl.arenaStart + span pl.headerSize pre)).size := by
      rw [hfit] at hsearch
      rw [myMalloc, hinit, if_neg hrange]
      simp only [hsearch]
    rw [hstats, hhead]

/-- `my_free` takes the payload from the bytes used. -/
theorem usedBytes_myFree (h : Represents pl s (pre ++ b :: post)) (hb : b.free = false) :
    (s.myFree pl (pl.arenaStart + span pl.headerSize pre + pl.headerSize)).stats.usedBytes =
      s.stats.usedBytes - b.size := by
  have hsize : (pl.header (pl.modify s.mem (pl.arenaStart + span pl.headerSize pre)
      ({ · with magic := blockMagicFree, isFree := 1 }))
        (pl.arenaStart + span pl.headerSize pre)).size = b.size :=
    (chain_mark true (chain_append.1 h.chain).2).1.1.size
  rw [h.myFree_eq hb, freeBlock]
  simp only [hsize]
  split <;> omega

theorem peakUsedBytes_myFree (s : MemoryManager) (ptr : ℕ) :
    (s.myFree pl ptr).stats.peakUsedBytes = s.stats.peakUsedBytes := by
  simp only [myFree]
  split_ifs <;> rfl

theorem totalCapacity_myFree (s : MemoryManager) (ptr : ℕ) :
    (s.myFree pl ptr).stats.totalCapacity = s.stats.totalCapacity := by
  simp only [myFree]
  split_ifs <;> rfl

/-- The bytes used are those of the allocated payloads. -/
theorem Reachable.usedBytes_eq (h : Reachable pl s live) :
    s.stats.usedBytes = s.payloadBytes pl 0 := by
  induction h with
  | init s => rw [(represents_mkMemoryInit pl s).payloadBytes_alloc]; rfl
  | @malloc s live hs size ih =>
    obtain ⟨bs, hbs, _⟩ := hs.inv
    rw [hbs.payloadBytes_alloc] at ih
    rcases myMalloc_stats hbs size with ⟨_, hnew, hstats⟩ |
      ⟨pre, b, post, _, _, hfit, _, hnew, hstats⟩
    · rw [hstats, hnew.payloadBytes_alloc]
      exact ih
    · obtain ⟨rfl, hfits⟩ := firstFit?_eq_some hfit
      obtain ⟨hfree, _⟩ : b.free = true ∧ align size ≤ b.size := by
        simpa [Block.fits] using hfits
      -- The sum is that of payloads in the arena, and does not overflow.
      have hlt := hnew.used_lt
      rw [hstats, hnew.payloadBytes_alloc]
      simp only [used_append, used_place, used_cons, hfree, if_true, Nat.zero_add] at ih hlt ⊢
      change (s.stats.usedBytes + placed pl.headerSize minPayload (align size) b) %
        256 ^ pl.ptrBytes = _
      rw [ih, Nat.mod_eq_of_lt (by omega)]
      omega
  | @free s live hs ptr size hptr ih =>
    obtain ⟨pre, k, post, hbs, _, rfl, _⟩ := hs.inv.exists_block hptr
    have hrelease : used (release pl.headerSize pre ⟨k, false⟩ post) + (⟨k, false⟩ : Block).size =
        used (pre ++ ⟨k, false⟩ :: post) := used_release pl.headerSize rfl
    rw [hbs.payloadBytes_alloc] at ih
    rw [usedBytes_myFree hbs rfl, (myFree_spec hbs rfl).payloadBytes_alloc, ih]
    omega
  | @store s live hs ptr size i data hptr hsize ih =>
    obtain ⟨pre, k, post, hbs, hle, rfl, _⟩ := hs.inv.exists_block hptr
    -- A store in a payload leaves the headers.
    have hnew : Represents pl { s with mem := blit s.mem _ data } _ :=
      hbs.store (Nat.le_add_right _ i) (by simp only; omega)
    rw [hbs.payloadBytes_alloc] at ih
    rw [hnew.payloadBytes_alloc]
    exact ih

/-! ## Runs -/

/-- A call of the allocator, or bytes stored in a payload by its owner. -/
inductive HeapCall
  | malloc (size : ℕ)
  | free (ptr : ℕ)
  | store (ptr i : ℕ) (data : List UInt8)

/-- The allocator and the live pointers after a call. -/
def exec (pl : Platform) (x : MemoryManager × (ℕ → Option ℕ)) :
    HeapCall → MemoryManager × (ℕ → Option ℕ)
  | .malloc size => ((x.1.myMalloc pl size).1,
      if (x.1.myMalloc pl size).2 = 0 then x.2
      else Function.update x.2 (x.1.myMalloc pl size).2 (some size))
  | .free ptr => (x.1.myFree pl ptr, Function.update x.2 ptr none)
  | .store ptr i data => ({ x.1 with mem := blit x.1.mem (ptr + i) data }, x.2)

/-- A call is about a live pointer, and bytes are stored in its payload. -/
def Allowed (live : ℕ → Option ℕ) : HeapCall → Prop
  | .malloc _ => True
  | .free ptr => ∃ size, live ptr = some size
  | .store ptr i data => ∃ size, live ptr = some size ∧ i + data.length ≤ size

/-- The allocator and the live pointers after `mk_memory_init` and some calls. -/
def run (pl : Platform) (s : MemoryManager) (calls : List HeapCall) :
    MemoryManager × (ℕ → Option ℕ) :=
  calls.foldl (exec pl) (s.mkMemoryInit pl, fun _ => none)

/-- Every call of a run is allowed when it is made. -/
def Legal (pl : Platform) (s : MemoryManager) (calls : List HeapCall) : Prop :=
  ∀ l c, l ++ [c] <+: calls → Allowed (run pl s l).2 c

/-- The counters after a run agree with the headers, and with the run. -/
structure Balanced (pl : Platform) (s : MemoryManager) (calls : List HeapCall) : Prop where
  used : (run pl s calls).1.stats.usedBytes = (run pl s calls).1.payloadBytes pl 0
  free : (run pl s calls).1.stats.freeBytes = (run pl s calls).1.payloadBytes pl 1
  capacity : (run pl s calls).1.stats.freeBytes ≤ (run pl s calls).1.stats.totalCapacity
  peak : IsGreatest {u | ∃ l, l <+: calls ∧ u = (run pl s l).1.stats.usedBytes}
    (run pl s calls).1.stats.peakUsedBytes

/-- A call of `my_malloc` splits the block that it finds: there is room for
    another one in it. -/
def Splits (pl : Platform) (s : MemoryManager) : HeapCall → Prop
  | .malloc size => 0 < size ∧ size ≤ arenaSize - pl.headerSize ∧
      ∃ curr, search pl s.mem (align size) arenaSize s.headBlock = .found curr ∧
        pl.headerSize + minPayload ≤ (pl.header s.mem curr).size - align size
  | _ => False

variable {calls l : List HeapCall} {c : HeapCall}

theorem run_concat (pl : Platform) (s : MemoryManager) (l : List HeapCall) (c : HeapCall) :
    run pl s (l ++ [c]) = exec pl (run pl s l) c := by
  rw [run, List.foldl_append]
  rfl

theorem Legal.of_prefix (h : Legal pl s calls) (hl : l <+: calls) : Legal pl s l :=
  fun _ _ hc => h _ _ (hc.trans hl)

theorem legal_nil (pl : Platform) (s : MemoryManager) : Legal pl s [] := fun l c h => by
  simp at h

/-- A legal run goes on with an allowed call. -/
theorem Legal.concat (h : Legal pl s l) (hc : Allowed (run pl s l).2 c) :
    Legal pl s (l ++ [c]) := fun l' c' hl' => by
  rcases List.prefix_concat_iff.1 hl' with heq | hl'
  · obtain ⟨rfl, hcc⟩ := List.append_inj' heq rfl
    obtain rfl := List.singleton_inj.1 hcc
    exact hc
  · exact h l' c' hl'

/-- A legal run reaches a state of the allocator. -/
theorem Legal.reachable (h : Legal pl s calls) :
    Reachable pl (run pl s calls).1 (run pl s calls).2 := by
  induction calls using List.reverseRecOn with
  | nil => exact .init s
  | append_singleton l c ih =>
    have hreach := ih (h.of_prefix (List.prefix_append l [c]))
    have hallowed := h l c (List.prefix_refl _)
    rw [run_concat]
    cases c with
    | malloc size => exact hreach.malloc size
    | free ptr =>
      obtain ⟨size, hptr⟩ := hallowed
      exact hreach.free hptr
    | store ptr i data =>
      obtain ⟨size, hptr, hsize⟩ := hallowed
      exact hreach.store hptr hsize

/-! ## The peak -/

/-- A call raises the peak to the bytes used, if it is less. -/
theorem peak_exec {x : MemoryManager × (ℕ → Option ℕ)} (h : Inv pl x.1 x.2)
    (hpeak : x.1.stats.usedBytes ≤ x.1.stats.peakUsedBytes) (hc : Allowed x.2 c) :
    (exec pl x c).1.stats.peakUsedBytes =
      max x.1.stats.peakUsedBytes (exec pl x c).1.stats.usedBytes := by
  cases c with
  | malloc size =>
    obtain ⟨bs, hbs, _⟩ := h
    rcases myMalloc_stats hbs size with ⟨_, _, hstats⟩ | ⟨_, _, _, _, _, _, _, _, hstats⟩
    · simp only [exec, hstats]
      omega
    · simp only [exec, hstats]
      rfl
  | free ptr =>
    obtain ⟨size, hptr⟩ := hc
    obtain ⟨pre, k, post, hbs, _, rfl, _⟩ := h.exists_block hptr
    simp only [exec, peakUsedBytes_myFree, usedBytes_myFree hbs rfl]
    omega
  | store ptr i data =>
    simp only [exec]
    omega

/-- The peak is the most bytes used at any point of the run. -/
theorem isGreatest_peak (h : Legal pl s calls) :
    IsGreatest {u | ∃ l, l <+: calls ∧ u = (run pl s l).1.stats.usedBytes}
      (run pl s calls).1.stats.peakUsedBytes := by
  induction calls using List.reverseRecOn with
  | nil =>
    refine ⟨⟨[], List.prefix_refl _, rfl⟩, ?_⟩
    rintro u ⟨l, hl, rfl⟩
    rw [List.prefix_nil.1 hl]
    exact Nat.le_refl _
  | append_singleton l c ih =>
    have hl := h.of_prefix (List.prefix_append l [c])
    obtain ⟨⟨l', hl', hmax⟩, hbound⟩ := ih hl
    have hpeak := peak_exec hl.reachable.inv (hbound ⟨l, List.prefix_refl _, rfl⟩)
      (h l c (List.prefix_refl _))
    rw [← run_concat] at hpeak
    rw [hpeak]
    -- The peak is reached at the last call, or was reached before it.
    refine ⟨?_, ?_⟩
    · rcases le_total (run pl s l).1.stats.peakUsedBytes (run pl s (l ++ [c])).1.stats.usedBytes
        with hle | hle
      · rw [max_eq_right hle]
        exact ⟨l ++ [c], List.prefix_refl _, rfl⟩
      · rw [max_eq_left hle]
        exact ⟨l', hl'.trans (List.prefix_append l [c]), hmax⟩
    · rintro u ⟨l'', hl'', rfl⟩
      rcases List.prefix_concat_iff.1 hl'' with rfl | hl''
      · exact le_max_right _ _
      · exact le_max_of_le_left (hbound ⟨l'', hl'', rfl⟩)

/-! ## Free bytes -/

/-- The headers determine the blocks. -/
theorem Chain.unique {prev' : ℕ} {bs' : List Block} (h : pl.Chain m prev p bs)
    (h' : pl.Chain m prev' p bs') (hspan : span pl.headerSize bs = span pl.headerSize bs') :
    bs = bs' := by
  have hsize := pl.headerSize_eq
  induction bs generalizing prev prev' p bs' with
  | nil =>
    cases bs' with
    | nil => rfl
    | cons b' bs' =>
      simp only [span] at hspan
      omega
  | cons b bs ih =>
    cases bs' with
    | nil =>
      simp only [span] at hspan
      omega
    | cons b' bs' =>
      obtain ⟨hb, hbs⟩ := h
      obtain ⟨hb', hbs'⟩ := h'
      -- The headers tell the size and the flag, and so where the next block is.
      have hsame : b.size = b'.size := hb.size.symm.trans hb'.size
      have hflag : b.free = b'.free := by
        have hisFree := hb.isFree.symm.trans hb'.isFree
        cases hf : b.free <;> cases hf' : b'.free <;> simp [hf, hf'] at hisFree ⊢
      rw [hsame] at hbs
      simp only [span, hsame] at hspan
      rw [ih hbs hbs' (by omega)]
      cases b
      cases b'
      simp_all

theorem Represents.unique {bs' : List Block} (h : Represents pl s bs) (h' : Represents pl s bs') :
    bs = bs' :=
  Chain.unique h.chain h'.chain (h.valid.span_eq.trans h'.valid.span_eq.symm)

/-- The calls that split a block, by the blocks. -/
theorem Represents.splits_malloc (h : Represents pl s bs) : Splits pl s (.malloc size) ↔
    0 < size ∧ size ≤ arenaSize - pl.headerSize ∧ ∃ pre b post,
      firstFit? (align size) bs = some (pre, b, post) ∧
        pl.headerSize + minPayload ≤ b.size - align size := by
  refine and_congr_right fun _ => and_congr_right fun _ => ?_
  rw [h.search_eq]
  cases hfit : firstFit? (align size) bs with
  | none => simp
  | some r =>
    obtain ⟨pre, b, post⟩ := r
    obtain ⟨rfl, _⟩ := firstFit?_eq_some hfit
    have hhead := (chain_append.1 h.chain).2.1.size
    simp only [Search.found.injEq, exists_eq_left', hhead, Option.some.injEq, Prod.mk.injEq]
    exact ⟨fun hroom => ⟨pre, b, post, ⟨rfl, rfl, rfl⟩, hroom⟩,
      fun ⟨_, _, _, ⟨_, hb, _⟩, hroom⟩ => hb ▸ hroom⟩

/-- A split leaves a header counted as free bytes. -/
theorem Splits.freeBytes_ne {x : MemoryManager × (ℕ → Option ℕ)} (h : Represents pl x.1 bs)
    (hfree : x.1.stats.freeBytes = x.1.payloadBytes pl 1) (hc : Splits pl x.1 c) :
    (exec pl x c).1.stats.freeBytes ≠ (exec pl x c).1.payloadBytes pl 1 := by
  obtain ⟨size, rfl⟩ : ∃ size, c = .malloc size := by
    cases c with
    | malloc size => exact ⟨size, rfl⟩
    | free ptr => exact hc.elim
    | store ptr i data => exact hc.elim
  obtain ⟨hpos, hle, pre, b, post, hfit, hroom⟩ := h.splits_malloc.1 hc
  have hsize := pl.headerSize_eq
  rcases myMalloc_stats h size with
    ⟨hret, hsame, -⟩ | ⟨pre', b', post', _, _, hfit', _, hnew, hstats⟩
  · -- The call does not fail.
    exfalso
    rcases myMalloc_spec h size with ⟨hfail, _⟩ | ⟨pre', b', post', _, _, hret', _⟩
    · rw [hfit] at hfail
      rcases hfail with hfail | hfail | hfail
      · omega
      · omega
      · cases hfail
    · have := pl.arenaStart_pos
      omega
  obtain ⟨rfl, rfl, rfl⟩ : pre = pre' ∧ b = b' ∧ post = post' := by
    simpa using hfit.symm.trans hfit'
  obtain ⟨rfl, hfits⟩ := firstFit?_eq_some hfit
  obtain ⟨hbfree, -⟩ : b.free = true ∧ align size ≤ b.size := by
    simpa [Block.fits] using hfits
  rw [h.payloadBytes_free] at hfree
  simp only [unused_append, unused_cons, hbfree, if_true] at hfree
  simp only [exec]
  rw [hstats, hnew.payloadBytes_free, countAlloc, placed, if_pos hroom, place, if_pos hroom]
  simp only [unused_append, unused_cons, Bool.false_eq_true, if_false, if_true]
  rw [if_pos (by omega), show unused [] = 0 from rfl]
  omega

/-- The arena is one block, free or allocated, and the counters agree. -/
def Whole (pl : Platform) (s : MemoryManager) : Prop :=
  ∃ free, Represents pl s [⟨arenaSize - pl.headerSize, free⟩] ∧
    s.stats.freeBytes = (if free then arenaSize - pl.headerSize else 0) ∧
    s.stats.totalCapacity = arenaSize - pl.headerSize

theorem whole_mkMemoryInit (pl : Platform) (s : MemoryManager) : Whole pl (s.mkMemoryInit pl) :=
  ⟨true, represents_mkMemoryInit pl s, rfl, rfl⟩

/-- A block allocated as a whole is released as a whole. -/
theorem freeBytes_myFree_whole (h : Represents pl s [⟨arenaSize - pl.headerSize, false⟩])
    (hfree : s.stats.freeBytes = 0) :
    (s.myFree pl (pl.arenaStart + pl.headerSize)).stats.freeBytes =
      arenaSize - pl.headerSize := by
  have hlt := pl.arenaEnd_lt
  have hmark : pl.Holds (pl.modify s.mem pl.arenaStart
      ({ · with magic := blockMagicFree, isFree := 1 })) 0 pl.arenaStart
        ⟨arenaSize - pl.headerSize, true⟩ := (chain_mark true h.chain).1.1
  have hlink : pl.link (pl.arenaStart + pl.headerSize + (arenaSize - pl.headerSize)) = 0 :=
    if_pos (by simpa [span, Nat.add_assoc] using h.end_eq)
  have hnext : nextIsFree pl (pl.modify s.mem pl.arenaStart
      ({ · with magic := blockMagicFree, isFree := 1 })) pl.arenaStart = false := by
    rw [nextIsFree, hmark.next, hlink]
    simp
  have hprev : prevIsFree pl (pl.modify s.mem pl.arenaStart
      ({ · with magic := blockMagicFree, isFree := 1 })) pl.arenaStart = false := by
    rw [prevIsFree, hmark.prev]
    simp
  have hlist : Represents pl s ([] ++ ⟨arenaSize - pl.headerSize, false⟩ :: []) := h
  have hcall := hlist.myFree_eq rfl
  simp only [span, Nat.add_zero] at hcall
  rw [hcall, freeBlock]
  simp only [coalesceNext, hnext, hprev, Bool.false_eq_true, if_false, hmark.size, hfree, wrap,
    Nat.zero_add]
  exact Nat.mod_eq_of_lt (by omega)

/-- When the arena is one block, a live pointer is that of the block. -/
theorem Inv.live_whole {x : MemoryManager × (ℕ → Option ℕ)} (hinv : Inv pl x.1 x.2) {free : Bool}
    (h : Represents pl x.1 [⟨arenaSize - pl.headerSize, free⟩]) {ptr size : ℕ}
    (hptr : x.2 ptr = some size) :
    free = false ∧ ptr = pl.arenaStart + pl.headerSize ∧ size ≤ arenaSize - pl.headerSize := by
  obtain ⟨pre, k, post, hbs, hle, rfl, _⟩ := hinv.exists_block hptr
  have heq := hbs.unique h
  cases pre with
  | nil =>
    obtain ⟨hb, rfl⟩ := List.cons.inj heq
    obtain ⟨rfl, rfl⟩ := Block.mk.inj hb
    exact ⟨rfl, by simp [span], hle⟩
  | cons a pre => simp at heq

/-- An allocation that splits no block takes the whole arena, or fails. -/
theorem Whole.myMalloc (h : Whole pl s) (hc : ¬Splits pl s (.malloc size)) :
    Whole pl (s.myMalloc pl size).1 := by
  have hsize := pl.headerSize_eq
  obtain ⟨free, hrep, hfree, hcap⟩ := h
  rcases myMalloc_stats hrep size with ⟨_, hnew, hstats⟩ |
    ⟨pre, b, post, hpos, hle, hfit, _, hnew, hstats⟩
  · exact ⟨free, hnew, by simp only [hstats, hfree], by simp only [hstats, hcap]⟩
  · have hroom : ¬pl.headerSize + minPayload ≤ b.size - align size := fun hroom =>
      hc (hrep.splits_malloc.2 ⟨hpos, hle, pre, b, post, hfit, hroom⟩)
    obtain ⟨hbs, hfits⟩ := firstFit?_eq_some hfit
    obtain ⟨hbfree, -⟩ : b.free = true ∧ align size ≤ b.size := by
      simpa [Block.fits] using hfits
    cases pre with
    | nil =>
      obtain ⟨rfl, rfl⟩ := List.cons.inj hbs
      obtain rfl : free = true := hbfree
      rw [placed, if_neg hroom] at hstats
      rw [place, if_neg hroom] at hnew
      refine ⟨false, hnew, ?_, ?_⟩
      · simp only [hstats, countAlloc, hfree, if_true]
        rw [if_neg (by omega)]
        rfl
      · simp only [hstats, countAlloc, hcap]
    | cons a pre => simp at hbs

/-- The block released is the whole arena again. -/
theorem Whole.myFree {x : MemoryManager × (ℕ → Option ℕ)} (h : Whole pl x.1) (hinv : Inv pl x.1 x.2)
    {ptr size : ℕ} (hptr : x.2 ptr = some size) : Whole pl (x.1.myFree pl ptr) := by
  obtain ⟨free, hrep, hfree, hcap⟩ := h
  obtain ⟨rfl, rfl, _⟩ := hinv.live_whole hrep hptr
  have hlist : Represents pl x.1 ([] ++ ⟨arenaSize - pl.headerSize, false⟩ :: []) := hrep
  have hnew := myFree_spec hlist rfl
  simp only [span, Nat.add_zero] at hnew
  refine ⟨true, ?_, freeBytes_myFree_whole hrep hfree, by rw [totalCapacity_myFree, hcap]⟩
  simpa [release, absorbLast, absorbFirst] using hnew

/-- A call that splits no block leaves the arena one block. -/
theorem Whole.exec {x : MemoryManager × (ℕ → Option ℕ)} (h : Whole pl x.1) (hinv : Inv pl x.1 x.2)
    (hallowed : Allowed x.2 c) (hc : ¬Splits pl x.1 c) : Whole pl (exec pl x c).1 := by
  cases c with
  | malloc size => exact h.myMalloc hc
  | free ptr =>
    obtain ⟨size, hptr⟩ := hallowed
    exact h.myFree hinv hptr
  | store ptr i data =>
    obtain ⟨free, hrep, hfree, hcap⟩ := h
    obtain ⟨size, hptr, hstored⟩ := hallowed
    obtain ⟨rfl, rfl, hle⟩ := hinv.live_whole hrep hptr
    have hsize := pl.headerSize_eq
    have hlist : Represents pl x.1 ([] ++ ⟨arenaSize - pl.headerSize, false⟩ :: []) := hrep
    have hnew : Represents pl
        { x.1 with mem := blit x.1.mem (pl.arenaStart + pl.headerSize + i) data } _ :=
      hlist.store (by simp [span]) (by simp only [span]; omega)
    exact ⟨false, hnew, hfree, hcap⟩

/-- At every point of a run the counters agree with the headers, exactly when no
    call of it splits a block. -/
theorem balanced_iff (pl : Platform) (s : MemoryManager) {calls : List HeapCall}
    (h : Legal pl s calls) : (∀ l, l <+: calls → Balanced pl s l) ↔
      ∀ l c, l ++ [c] <+: calls → ¬Splits pl (run pl s l).1 c := by
  refine ⟨fun hbal l c hl hc => ?_, fun hno l hl => ?_⟩
  · have hpre : l <+: calls := (List.prefix_append l [c]).trans hl
    obtain ⟨bs, hbs, _⟩ := (h.of_prefix hpre).reachable.inv
    refine Splits.freeBytes_ne hbs (hbal l hpre).free hc ?_
    rw [← run_concat]
    exact (hbal _ hl).free
  · have hlegal := h.of_prefix hl
    have hwhole : Whole pl (run pl s l).1 := by
      clear hlegal
      induction l using List.reverseRecOn with
      | nil => exact whole_mkMemoryInit pl s
      | append_singleton l c ih =>
        have hpre : l <+: calls := (List.prefix_append l [c]).trans hl
        rw [run_concat]
        exact (ih hpre).exec (h.of_prefix hpre).reachable.inv (h l c hl) (hno l c hl)
    obtain ⟨free, hrep, hfree, hcap⟩ := hwhole
    refine ⟨hlegal.reachable.usedBytes_eq, ?_, ?_, isGreatest_peak hlegal⟩
    · rw [hrep.payloadBytes_free, hfree]
      cases free <;> simp [unused]
    · rw [hfree, hcap]
      split <;> omega

/-- The whole arena is allocated and freed. -/
theorem balanced_iff_whole : Legal esp32 zeroed [.malloc 131048, .free 0x3FC90018] ∧
    ∀ l, l <+: [.malloc 131048, .free 0x3FC90018] → Balanced esp32 zeroed l := by
  have hmalloc : Legal esp32 zeroed ([] ++ [.malloc 131048]) :=
    (legal_nil esp32 zeroed).concat (show Allowed _ (.malloc 131048) from trivial)
  have hlegal : Legal esp32 zeroed ([] ++ [.malloc 131048] ++ [.free 0x3FC90018]) :=
    hmalloc.concat (show Allowed _ (.free 0x3FC90018) from ⟨131048, by decide +kernel⟩)
  refine ⟨hlegal, (balanced_iff esp32 zeroed hlegal).2 fun l c hl hc => ?_⟩
  cases c with
  | malloc size =>
    rcases l with _ | ⟨a, _ | ⟨b, l⟩⟩
    · obtain rfl : size = 131048 := by simpa using hl
      obtain ⟨_, _, curr, hcurr, hroom⟩ := hc
      have hfound : search esp32 (run esp32 zeroed []).1.mem (align 131048) arenaSize
          (run esp32 zeroed []).1.headBlock = .found 0x3FC90000 := by decide +kernel
      obtain rfl := Search.found.inj (hfound.symm.trans hcurr)
      exact absurd hroom (by decide +kernel)
    · simp at hl
    · simp at hl
  | free ptr => exact hc
  | store ptr i data => exact hc

/-- Ten bytes allocated, and their header is counted as free bytes. -/
theorem header_counted_free :
    Legal esp32 zeroed [.malloc 10] ∧ ¬Balanced esp32 zeroed [.malloc 10] := by
  refine ⟨(legal_nil esp32 zeroed).concat (show Allowed _ (.malloc 10) from trivial), fun h => ?_⟩
  have hfree := h.free
  have hcounted : (run esp32 zeroed [.malloc 10]).1.stats.freeBytes = 131032 := by decide +kernel
  have hheaders : (run esp32 zeroed [.malloc 10]).1.payloadBytes esp32 1 = 131008 := by
    decide +kernel
  rw [hcounted, hheaders] at hfree
  cases hfree

/-- Each time the bytes are freed again, one header more is counted, so that the
    free bytes come to exceed the capacity. -/
example :
    (run esp32 zeroed [.malloc 10, .free 0x3FC90018]).1.stats.freeBytes = 131072 ∧
      (run esp32 zeroed [.malloc 10, .free 0x3FC90018]).1.stats.totalCapacity = 131048 := by
  decide +kernel

end MemoryManager

end SliverOS
